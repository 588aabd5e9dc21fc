import Llamactl.Collections.Counting
import Llamactl.Rag.HttpFetcher

open collections js List

namespace llamactl.rag

/-! The transport guard of a git source, and what git makes of the `repo` it lets through. -/

structure GitSourceSpec where
  repo : List Nat
  ref : Option (List Nat) := none

structure SpecIssue where
  path : List String
  message : String
  deriving DecidableEq

section

def isLetterUnit (u : Nat) : Bool := (0x41 ≤ u && u ≤ 0x5A) || (0x61 ≤ u && u ≤ 0x7A)

/-- `[a-zA-Z0-9+.-]` -/
def isSchemeUnit (u : Nat) : Bool := isLetterUnit u || isDigitUnit u || u = 0x2B || u = 0x2E || u = 0x2D

/-- `SCP_FORM_RE.test(repo)`: each class leaves out the separator after it, so a run of it ends where the match must. -/
def SCP_FORM_RE (repo : List Nat) : Bool :=
  let user := repo.takeWhile fun u => !(u = 0x2F || u = 0x40 || isTrimmedUnit u)
  match repo.drop user.length with
  | 0x40 :: rest =>
    let host := rest.takeWhile fun u => !(u = 0x2F || u = 0x3A || isTrimmedUnit u)
    match rest.drop host.length with
    | 0x3A :: path => user ≠ [] && host ≠ [] && path ≠ [] && path.all fun u => !isLineTerminator u
    | _ => false
  | _ => false

def GIT_ALLOWED_SCHEMES : List (List Nat) := [units "https", units "http", units "ssh", units "git", units "file"]

/-- The run of scheme characters, after a letter, that a text begins with. -/
def schemeRun : List Nat → List Nat
  | [] => []
  | u :: rest => if isLetterUnit u then u :: rest.takeWhile isSchemeUnit else []

def schemeMatch (repo : List Nat) : Option (List Nat) :=
  if schemeRun repo ≠ [] ∧ units "://" <+: repo.drop (schemeRun repo).length then some (schemeRun repo) else none

def gitRepoTransportIsAllowed (repo : List Nat) : Bool :=
  if units "-" <+: repo then false
  else if units "/" <+: repo ∨ units "./" <+: repo ∨ units "../" <+: repo then true
  else if SCP_FORM_RE repo then true
  else
    match schemeMatch repo with
    | some scheme => GIT_ALLOWED_SCHEMES.contains (lowerUnits scheme)
    | none => false

/-- The issues of a spec, the refinements' only where the object itself has none. -/
def GitSourceSpecSchema (spec : GitSourceSpec) : List SpecIssue :=
  if spec.repo = [] then [⟨["repo"], "Too small: expected string to have >=1 characters"⟩]
  else
    (if gitRepoTransportIsAllowed spec.repo then []
      else [⟨["repo"], "git repo must use an allowlisted transport (https/http/ssh/git/file URL, scp-form git@host:path, " ++
        "or a local path) and must not begin with '-'; dangerous remote-helpers like ext::/fd:: are rejected"⟩]) ++
    if spec.ref.any fun ref => units "-" <+: ref then
      [⟨["ref"], "git ref must not begin with '-' (would be parsed as a git option)"⟩]
    else []

def buildCloneArgs (spec : GitSourceSpec) (cloneUrl tmp : List Nat) : List (List Nat) :=
  [units "clone", units "--depth=1", units "--quiet"] ++
    (match spec.ref with
      | some ref => if ref = [] then [] else [units "--branch=" ++ ref]
      | none => []) ++
    [units "--", cloneUrl, tmp]

end

section

/-- A run of URL-scheme characters; git asks for a letter first. -/
structure SchemeText (text : List Nat) : Prop where
  letter : ∃ u, text.head? = some u ∧ isLetterUnit u = true
  inside : ∀ u ∈ text, isSchemeUnit u = true

/-- What git takes for the address of a remote helper; the helper's name may be empty. -/
def NamesHelper (repo : List Nat) : Prop :=
  ∃ run rest, (run = [] ∨ SchemeText run) ∧ repo = run ++ units "::" ++ rest

def HasScheme (repo scheme : List Nat) : Prop :=
  SchemeText scheme ∧ ∃ rest, repo = scheme ++ units "://" ++ rest

/-- The arguments after the mark that ends the options. -/
def operandsOf (args : List (List Nat)) : List (List Nat) := (args.dropWhile (· ≠ units "--")).tail

/-- A repository that git reaches by one of the allowed transports and by nothing else. -/
structure ReachedSafely (spec : GitSourceSpec) : Prop where
  no_helper : ¬NamesHelper spec.repo
  no_option : ¬units "-" <+: spec.repo
  operand : ∀ tmp, operandsOf (buildCloneArgs spec spec.repo tmp) = [spec.repo, tmp]
  scheme : ∀ scheme, HasScheme spec.repo scheme → lowerUnits scheme ∈ GIT_ALLOWED_SCHEMES

end

section

theorem isLetterUnit_range {u : Nat} (h : isLetterUnit u = true) : 0x41 ≤ u ∧ u ≤ 0x5A ∨ 0x61 ≤ u ∧ u ≤ 0x7A := by
  simpa [isLetterUnit] using h

theorem isSchemeUnit_range {u : Nat} (h : isSchemeUnit u = true) :
    0x41 ≤ u ∧ u ≤ 0x5A ∨ 0x61 ≤ u ∧ u ≤ 0x7A ∨ 0x30 ≤ u ∧ u ≤ 0x39 ∨ u = 0x2B ∨ u = 0x2E ∨ u = 0x2D := by
  simp only [isSchemeUnit, isLetterUnit, isDigitUnit, Bool.or_eq_true, Bool.and_eq_true, decide_eq_true_eq] at h
  omega

theorem SchemeText.ne_nil {text : List Nat} (htext : SchemeText text) : text ≠ [] := by
  obtain ⟨u, hu, -⟩ := htext.letter
  rintro rfl
  cases hu

theorem SchemeText.not_mem {text : List Nat} {u : Nat} (htext : SchemeText text)
    (hu : u = 0x3A ∨ u = 0x2F ∨ u = 0x40) : u ∉ text := by
  intro hmem
  have hrange := isSchemeUnit_range (htext.inside u hmem)
  omega

theorem schemeRun_cons_letter {u : Nat} (hletter : isLetterUnit u = true) (rest : List Nat) :
    schemeRun (u :: rest) = u :: rest.takeWhile isSchemeUnit := if_pos hletter

theorem schemeRun_cons_other {u : Nat} (hletter : ¬isLetterUnit u = true) (rest : List Nat) :
    schemeRun (u :: rest) = [] := if_neg hletter

theorem schemeRun_text {text : List Nat} (hsome : schemeRun text ≠ []) : SchemeText (schemeRun text) := by
  cases text with
  | nil => exact absurd rfl hsome
  | cons u rest =>
    by_cases hletter : isLetterUnit u = true
    · rw [schemeRun_cons_letter hletter]
      refine ⟨⟨u, rfl, hletter⟩, ?_⟩
      rw [forall_mem_cons]
      exact ⟨by simp [isSchemeUnit, hletter], fun v hv => mem_takeWhile_imp hv⟩
    · exact absurd (schemeRun_cons_other hletter rest) hsome

theorem schemeRun_append_drop (text : List Nat) : schemeRun text ++ text.drop (schemeRun text).length = text := by
  apply prefix_iff_eq_append.mp
  cases text with
  | nil => exact nil_prefix
  | cons u rest =>
    by_cases hletter : isLetterUnit u = true
    · rw [schemeRun_cons_letter hletter, prefix_cons_inj]
      exact takeWhile_prefix _
    · rw [schemeRun_cons_other hletter]
      exact nil_prefix

/-- A scheme before `://` is the one the guard looks up. -/
theorem schemeMatch_eq_some {repo scheme : List Nat} (hmatch : schemeMatch repo = some scheme) :
    HasScheme repo scheme := by
  unfold schemeMatch at hmatch
  split at hmatch
  next hrun =>
    obtain ⟨hsome, rest, hrest⟩ := hrun
    cases hmatch
    refine ⟨schemeRun_text hsome, rest, ?_⟩
    rw [append_assoc, hrest, schemeRun_append_drop]
  · cases hmatch

theorem HasScheme.unique {repo scheme other : List Nat} (hscheme : HasScheme repo scheme)
    (hother : HasScheme repo other) : scheme = other := by
  obtain ⟨htext, rest, hrepo⟩ := hscheme
  obtain ⟨htext', rest', hrepo'⟩ := hother
  rw [append_assoc] at hrepo hrepo'
  exact (split_unique (htext.not_mem (.inl rfl)) (htext'.not_mem (.inl rfl)) (hrepo.symm.trans hrepo')).1

/-- The colon after a scheme is followed by a slash, the one after a helper's name by another colon. -/
theorem HasScheme.not_helper {repo scheme : List Nat} (hscheme : HasScheme repo scheme) : ¬NamesHelper repo := by
  obtain ⟨htext, rest, hrepo⟩ := hscheme
  rintro ⟨run, more, hrun, hrepo'⟩
  rw [append_assoc] at hrepo hrepo'
  have hcolon : 0x3A ∉ run := by
    obtain rfl | hrun := hrun
    · simp
    · exact hrun.not_mem (.inl rfl)
  have hrest := (split_unique (htext.not_mem (.inl rfl)) hcolon (hrepo.symm.trans hrepo')).2
  cases hrest

theorem not_path {repo run rest : List Nat} (hrun : run = [] ∨ SchemeText run) (hrepo : repo = run ++ 0x3A :: rest) :
    ¬(units "/" <+: repo ∨ units "./" <+: repo ∨ units "../" <+: repo) := by
  have hfirst : ∀ {u : Nat} {more : List Nat}, u = 0x2F ∨ u = 0x2E → ¬u :: more <+: repo := by
    rintro u more hu ⟨others, hothers⟩
    rw [hrepo] at hothers
    obtain rfl | hrun := hrun
    · have hhead := (List.cons.inj hothers).1
      omega
    obtain ⟨v, hv, hletter⟩ := hrun.letter
    have hrange := isLetterUnit_range hletter
    have hhead := congrArg List.head? hothers
    rw [head?_append_of_ne_nil _ hrun.ne_nil, hv] at hhead
    have huv : u = v := Option.some.inj hhead
    omega
  rintro (hpath | hpath | hpath)
  · exact hfirst (.inl rfl) hpath
  · exact hfirst (.inr rfl) hpath
  · exact hfirst (.inr rfl) hpath

end

section

theorem scp_user {repo : List Nat} (hscp : SCP_FORM_RE repo = true) :
    ∃ user rest, repo = user ++ 0x40 :: rest ∧ 0x2F ∉ user ∧ 0x40 ∉ user := by
  simp only [SCP_FORM_RE] at hscp
  split at hscp
  next rest hdrop =>
    have hsplit := prefix_iff_eq_append.mp
      (List.takeWhile_prefix (l := repo) fun u => !(u = 0x2F || u = 0x40 || isTrimmedUnit u))
    rw [hdrop] at hsplit
    refine ⟨_, rest, hsplit.symm, ?_, ?_⟩
    · intro hslash
      have hkept := mem_takeWhile_imp hslash
      simp at hkept
    intro hat
    have hkept := mem_takeWhile_imp hat
    simp at hkept
  · cases hscp

theorem HasScheme.not_scp {repo scheme : List Nat} (hscheme : HasScheme repo scheme) : SCP_FORM_RE repo = false := by
  rw [Bool.eq_false_iff]
  intro hscp
  obtain ⟨user, rest, hrepo, hslash, hat⟩ := scp_user hscp
  obtain ⟨htext, more, hrepo'⟩ := hscheme
  have huser := takeWhile_append_cons hat rest
  have hkept : ∀ u ∈ scheme ++ units "://", decide (u ≠ 0x40) = true := by
    intro u hu
    rw [decide_eq_true_eq]
    rw [mem_append] at hu
    obtain hu | hu := hu
    · exact ne_of_mem_of_not_mem hu (htext.not_mem (.inr (.inr rfl)))
    · exact ne_of_mem_of_not_mem hu (by decide)
  rw [← hrepo, hrepo', takeWhile_append_of_pos hkept] at huser
  apply hslash
  rw [← huser]
  exact mem_append_left _ (mem_append_right _ (by decide))

theorem allowed_cases {repo : List Nat} (hallowed : gitRepoTransportIsAllowed repo = true) :
    ¬units "-" <+: repo ∧ ((units "/" <+: repo ∨ units "./" <+: repo ∨ units "../" <+: repo) ∨
      SCP_FORM_RE repo = true ∨ ∃ scheme, HasScheme repo scheme ∧ lowerUnits scheme ∈ GIT_ALLOWED_SCHEMES) := by
  unfold gitRepoTransportIsAllowed at hallowed
  split at hallowed
  · cases hallowed
  next hdash =>
    refine ⟨hdash, ?_⟩
    split at hallowed
    next hpath => exact .inl hpath
    · split at hallowed
      next hscp => exact .inr (.inl hscp)
      · split at hallowed
        next scheme hmatch =>
          exact .inr (.inr ⟨scheme, schemeMatch_eq_some hmatch, contains_iff_mem.mp hallowed⟩)
        · cases hallowed

theorem allowed_of_schema {spec : GitSourceSpec} (haccepted : GitSourceSpecSchema spec = []) :
    gitRepoTransportIsAllowed spec.repo = true := by
  unfold GitSourceSpecSchema at haccepted
  split at haccepted
  · cases haccepted
  have hrepo := (append_eq_nil_iff.mp haccepted).1
  split at hrepo
  next hallowed => exact hallowed
  · cases hrepo

theorem operandsOf_buildCloneArgs (spec : GitSourceSpec) (cloneUrl tmp : List Nat) :
    operandsOf (buildCloneArgs spec cloneUrl tmp) = [cloneUrl, tmp] := by
  have hbranch : ∀ ref : List Nat, units "--branch=" ++ ref ≠ units "--" := by
    intro ref heq
    have hlength := congrArg List.length heq
    have hlong : (units "--branch=").length = 9 := rfl
    have hshort : (units "--").length = 2 := rfl
    rw [length_append] at hlength
    omega
  have hkept : ∀ arg ∈ [units "clone", units "--depth=1", units "--quiet"] ++
      (match spec.ref with
        | some ref => if ref = [] then [] else [units "--branch=" ++ ref]
        | none => []), decide (arg ≠ units "--") = true := by
    intro arg harg
    rw [decide_eq_true_eq]
    rw [mem_append] at harg
    obtain harg | harg := harg
    · simp only [mem_cons, not_mem_nil, or_false] at harg
      obtain rfl | rfl | rfl := harg <;> decide
    split at harg
    · split at harg
      · cases harg
      · rw [mem_singleton.mp harg]
        exact hbranch _
    · cases harg
  unfold operandsOf buildCloneArgs
  rw [dropWhile_append_of_pos hkept]
  simp

/-- A repository in the scp form, with a helper's name and two colons before the at sign. -/
def HelperUser (repo : List Nat) : Prop := SCP_FORM_RE repo = true ∧ NamesHelper (repo.takeWhile (· ≠ 0x40))

theorem namesHelper_user {repo : List Nat} : NamesHelper (repo.takeWhile (· ≠ 0x40)) ↔ NamesHelper repo := by
  constructor
  · rintro ⟨run, rest, hrun, huser⟩
    obtain ⟨more, hrepo⟩ := takeWhile_prefix (l := repo) fun u => decide (u ≠ 0x40)
    exact ⟨run, rest ++ more, hrun, by rw [← hrepo, huser, append_assoc]⟩
  rintro ⟨run, rest, hrun, rfl⟩
  have hkept : ∀ u ∈ run ++ units "::", decide (u ≠ 0x40) = true := by
    intro u hu
    rw [decide_eq_true_eq]
    rw [mem_append] at hu
    obtain hu | hu := hu
    · obtain rfl | hrun := hrun
      · cases hu
      · exact ne_of_mem_of_not_mem hu (hrun.not_mem (.inr (.inr rfl)))
    · exact ne_of_mem_of_not_mem hu (by decide)
  exact ⟨run, rest.takeWhile (· ≠ 0x40), hrun, takeWhile_append_of_pos hkept⟩

end

end llamactl.rag
