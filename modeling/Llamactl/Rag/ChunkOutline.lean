import Llamactl.Rag.Runtime

open js List

namespace llamactl.rag

/-! What the chunker makes of a document: its outline, the sections, and how each section is packed. -/

structure Segment where
  headings : List Heading
  lines : List (List Nat)

def outlineFrom (headings : List Heading) (lines : List (List Nat)) : List (List Nat) → List Segment
  | [] => [⟨headings, lines⟩]
  | line :: rest =>
    match parseHeading line with
    | some heading => ⟨headings, lines⟩ :: outlineFrom (headings ++ [heading]) [] rest
    | none => outlineFrom headings (lines ++ [line]) rest

def outline (lines : List (List Nat)) : List Segment := outlineFrom [] [] lines

/-- The headings that no later one at their level or above has closed. -/
def openHeadings : List Heading → List Heading
  | [] => []
  | heading :: later =>
    if later.all fun other => heading.level < other.level then heading :: openHeadings later else openHeadings later

def Segment.section (segment : Segment) : Section where
  path := (openHeadings segment.headings).map Heading.title
  body := trimUnits ([0x0A].intercalate segment.lines)

def isBlankLine (line : List Nat) : Bool := line.all isTrimmedUnit

/-- Blank lines before the first heading make no section. -/
def Segment.kept (segment : Segment) : Bool := segment.headings ≠ [] || !segment.lines.all isBlankLine

section

theorem openHeadings_append (headings : List Heading) (heading : Heading) :
    openHeadings (headings ++ [heading]) =
      (openHeadings headings).filter (fun other => other.level < heading.level) ++ [heading] := by
  induction headings with
  | nil => rfl
  | cons first later ih =>
    rw [cons_append, openHeadings, openHeadings, ih]
    by_cases hall : (later.all fun other => decide (first.level < other.level)) = true
    · by_cases hlt : first.level < heading.level
      · simp [hall, hlt]
      · simp [hall, hlt]
    · simp [hall]

theorem openHeadings_increasing (headings : List Heading) :
    (openHeadings headings).Pairwise fun first later => first.level < later.level := by
  induction headings using List.reverseRecOn with
  | nil => exact List.Pairwise.nil
  | append_singleton headings heading ih =>
    rw [openHeadings_append]
    apply pairwise_append.mpr
    refine ⟨ih.filter _, pairwise_singleton _ _, ?_⟩
    intro first hfirst last hlast
    rw [mem_singleton.mp hlast]
    exact of_decide_eq_true (mem_filter.mp hfirst).2

/-- On rising levels the loop that pops what a heading closes keeps the headings above it. -/
theorem dropWhile_increasing {headings : List Heading}
    (hrising : headings.Pairwise fun first later => first.level < later.level) (level : Nat) :
    (headings.reverse.dropWhile fun last => level ≤ last.level).reverse =
      headings.filter fun other => other.level < level := by
  induction headings using List.reverseRecOn with
  | nil => rfl
  | append_singleton headings last ih =>
    obtain ⟨hbefore, -, hlast⟩ := pairwise_append.mp hrising
    rw [reverse_append, reverse_singleton, singleton_append, dropWhile_cons, filter_append]
    by_cases hcloses : level ≤ last.level
    · have hnot : ¬ last.level < level := by omega
      simp only [hcloses, decide_true, if_true, ih hbefore, filter_cons, hnot, decide_false,
        Bool.false_eq_true, if_false, filter_nil, append_nil]
    have hlt : last.level < level := by omega
    have hall : headings.filter (fun other => decide (other.level < level)) = headings := by
      apply filter_eq_self.mpr
      intro other hother
      have hlower := hlast other hother last (mem_singleton_self last)
      apply decide_eq_true
      omega
    simp [hcloses, hlt, hall]

theorem openHeadings_eq_nil {headings : List Heading} : openHeadings headings = [] ↔ headings = [] := by
  constructor
  · intro hnil
    induction headings using List.reverseRecOn with
    | nil => rfl
    | append_singleton headings heading ih =>
      rw [openHeadings_append] at hnil
      simp at hnil
  · rintro rfl
    rfl

end

section

theorem trimUnits_eq_nil {text : List Nat} : trimUnits text = [] ↔ ∀ u ∈ text, isTrimmedUnit u = true := by
  unfold trimUnits
  rw [reverse_eq_nil_iff, dropWhile_eq_nil_iff]
  constructor
  · intro hall
    apply dropWhile_eq_nil_iff.mp
    cases hdrop : text.dropWhile isTrimmedUnit with
    | nil => rfl
    | cons u rest =>
      have hfirst : isTrimmedUnit u = false := by
        have hhead := head?_dropWhile_not isTrimmedUnit text
        rw [hdrop] at hhead
        simpa using hhead
      rw [hdrop] at hall
      rw [hall u (by simp)] at hfirst
      cases hfirst
  · intro hall u hu
    exact hall u ((dropWhile_sublist _).subset (mem_reverse.mp hu))

theorem all_intercalate {p : Nat → Bool} {separator : List Nat} (hseparator : separator.all p = true)
    (lines : List (List Nat)) : (separator.intercalate lines).all p = lines.all fun line => line.all p := by
  induction lines with
  | nil => rfl
  | cons line rest ih =>
    cases rest with
    | nil => simp
    | cons next rest =>
      rw [intercalate_cons_cons, all_append, all_append, hseparator, ih, Bool.and_true]
      rfl

theorem body_eq_nil {segment : Segment} : segment.section.body = [] ↔ segment.lines.all isBlankLine = true := by
  have hnewline : [0x0A].all isTrimmedUnit = true := by decide
  show trimUnits ([0x0A].intercalate segment.lines) = [] ↔ _
  rw [trimUnits_eq_nil, ← all_eq_true, all_intercalate hnewline]
  rfl

theorem kept_iff {segment : Segment} :
    segment.kept = true ↔ segment.section.body ≠ [] ∨ segment.section.path ≠ [] := by
  have hpath : segment.section.path = [] ↔ segment.headings = [] := by
    show (openHeadings segment.headings).map Heading.title = [] ↔ _
    rw [map_eq_nil_iff, openHeadings_eq_nil]
  rw [ne_eq, ne_eq, body_eq_nil, hpath, or_comm]
  simp [Segment.kept]

theorem lines_outlineFrom (headings : List Heading) (before lines : List (List Nat)) :
    (outlineFrom headings before lines).flatMap (·.lines) =
      before ++ lines.filter fun line => (parseHeading line).isNone := by
  induction lines generalizing headings before with
  | nil => simp [outlineFrom]
  | cons line rest ih =>
    unfold outlineFrom
    cases hheading : parseHeading line with
    | some heading => simp [hheading, ih]
    | none => simp [hheading, ih]

theorem headings_outlineFrom {headings : List Heading} (hne : headings ≠ []) (before lines : List (List Nat)) :
    ∀ segment ∈ outlineFrom headings before lines, segment.headings ≠ [] := by
  induction lines generalizing headings before with
  | nil =>
    intro segment hsegment
    rw [mem_singleton.mp hsegment]
    exact hne
  | cons line rest ih =>
    unfold outlineFrom
    cases parseHeading line with
    | none => exact ih hne _
    | some heading =>
      intro segment hsegment
      obtain rfl | hlater := mem_cons.mp hsegment
      · exact hne
      · exact ih (by simp) _ segment hlater

theorem outlineFrom_cons (before lines : List (List Nat)) :
    ∃ first later, outlineFrom [] before lines = first :: later ∧ first.headings = [] ∧
      ∀ segment ∈ later, segment.headings ≠ [] := by
  induction lines generalizing before with
  | nil => exact ⟨_, [], rfl, rfl, fun _ h => by cases h⟩
  | cons line rest ih =>
    unfold outlineFrom
    cases parseHeading line with
    | none => exact ih _
    | some heading => exact ⟨_, _, rfl, rfl, headings_outlineFrom (by simp) _ _⟩

theorem sections_flush {walk : Walk} {headings : List Heading} (hstack : walk.pathStack = openHeadings headings) :
    walk.flush.sections =
      walk.sections ++ ([(⟨headings, walk.bodyLines⟩ : Segment)].filter Segment.kept).map Segment.section := by
  have hkept : (⟨headings, walk.bodyLines⟩ : Segment).kept = true ↔
      trimUnits ([0x0A].intercalate walk.bodyLines) ≠ [] ∨ (openHeadings headings).map Heading.title ≠ [] := kept_iff
  unfold Walk.flush
  dsimp only
  rw [hstack, filter_singleton]
  split
  · rename_i hsome
    rw [hkept.mpr hsome]
    rfl
  rename_i hnone
  rw [Bool.eq_false_iff.mpr fun h => hnone (hkept.mp h)]
  exact (append_nil _).symm

theorem sections_walk (lines : List (List Nat)) (walk : Walk) (headings : List Heading)
    (hstack : walk.pathStack = openHeadings headings) :
    (lines.foldl Walk.line walk).flush.sections =
      walk.sections ++ ((outlineFrom headings walk.bodyLines lines).filter Segment.kept).map Segment.section := by
  induction lines generalizing walk headings with
  | nil => exact sections_flush hstack
  | cons line rest ih =>
    rw [foldl_cons]
    unfold outlineFrom
    cases hheading : parseHeading line with
    | none =>
      have hline : walk.line line = { walk with bodyLines := walk.bodyLines ++ [line] } := by
        unfold Walk.line
        rw [hheading]
      rw [hline]
      exact ih _ headings hstack
    | some heading =>
      have hopen : (walk.flush.pathStack.reverse.dropWhile fun last => decide (heading.level ≤ last.level)).reverse ++
          [heading] = openHeadings (headings ++ [heading]) := by
        have hflushed : walk.flush.pathStack = openHeadings headings := hstack
        rw [openHeadings_append, ← dropWhile_increasing (openHeadings_increasing headings), hflushed]
      have hline : walk.line line = { walk.flush with pathStack := openHeadings (headings ++ [heading]) } := by
        rw [← hopen]
        unfold Walk.line
        rw [hheading]
      have hcons : ((⟨headings, walk.bodyLines⟩ :: outlineFrom (headings ++ [heading]) [] rest).filter
          Segment.kept).map Segment.section =
            ([(⟨headings, walk.bodyLines⟩ : Segment)].filter Segment.kept).map Segment.section ++
              ((outlineFrom (headings ++ [heading]) [] rest).filter Segment.kept).map Segment.section := by
        rw [← map_append, ← filter_append]
        rfl
      rw [hline, ih _ (headings ++ [heading]) rfl]
      dsimp only
      rw [hcons, sections_flush hstack, append_assoc]
      rfl

theorem splitByHeadings_eq (text : List Nat) :
    splitByHeadings text = ((outline (splitLines text)).filter Segment.kept).map Segment.section := by
  unfold splitByHeadings
  rw [sections_walk (splitLines text) {} [] rfl]
  apply filter_eq_self.mpr
  intro sec hsec
  obtain ⟨segment, hsegment, rfl⟩ := mem_map.mp hsec
  exact decide_eq_true (kept_iff.mp (mem_filter.mp hsegment).2)

end

section

def joinParagraphs (paragraphs : List (List Nat)) : List Nat := [0x0A, 0x0A].intercalate paragraphs

/-- What a chunk carries over of the one before it. -/
def carried (overlap : Nat) (previous : List Nat) : List Nat :=
  if 0 < overlap ∧ overlap < previous.length then previous.drop (previous.length - overlap) ++ [0x0A, 0x0A] else []

def groupTexts (overlap : Nat) : List Nat → List (List (List Nat)) → List (List Nat)
  | _, [] => []
  | carry, group :: rest =>
    (carry ++ joinParagraphs group) :: groupTexts overlap (carried overlap (carry ++ joinParagraphs group)) rest

def Section.paragraphs (sec : Section) : List (List Nat) :=
  ((splitParagraphsFrom [] 0 sec.body).map trimUnits).filter (· ≠ [])

/-- The heading line of a section, with the empty line after it. -/
def sectionLead (spec : ChunkSpec) (sec : Section) : List Nat :=
  if spec.preserveHeadings ∧ sec.path ≠ [] then formatHeadingPrefix sec.path ++ [0x0A, 0x0A] else []

def longest (paragraphs : List (List Nat)) : Nat := (paragraphs.map List.length).foldr max 0

theorem length_le_longest {paragraphs : List (List Nat)} {paragraph : List Nat} (h : paragraph ∈ paragraphs) :
    paragraph.length ≤ longest paragraphs := by
  induction paragraphs with
  | nil => cases h
  | cons first rest ih =>
    show _ ≤ max first.length (longest rest)
    obtain rfl | hlater := mem_cons.mp h
    · omega
    · have hle := ih hlater
      omega

theorem joinParagraphs_append {group : List (List Nat)} (hgroup : group ≠ []) (paragraph : List Nat) :
    joinParagraphs (group ++ [paragraph]) = joinParagraphs group ++ 0x0A :: 0x0A :: paragraph := by
  unfold joinParagraphs
  induction group with
  | nil => exact absurd rfl hgroup
  | cons first rest ih =>
    cases rest with
    | nil => simp [intercalate_cons_cons]
    | cons second rest =>
      have hrest := ih (by simp)
      rw [cons_append, intercalate_cons_of_ne_nil (by simp), hrest, intercalate_cons_cons]
      simp

theorem nextWindowSeed_eq (current paragraph : List Nat) (overlap : Nat) :
    nextWindowSeed current paragraph overlap = carried overlap current ++ paragraph := by
  unfold nextWindowSeed carried
  by_cases h : 0 < overlap ∧ overlap < current.length
  · have htail : current.drop (current.length - overlap) ≠ [] := by
      rw [ne_eq, drop_eq_nil_iff]
      omega
    rw [if_pos h, if_pos h]
    dsimp only
    rw [if_pos htail]
    simp
  · rw [if_neg h, if_neg h]
    exact if_neg (by simp)

theorem length_carried (overlap : Nat) (previous : List Nat) : (carried overlap previous).length ≤ overlap + 2 := by
  unfold carried
  split
  · rw [length_append, length_drop]
    show _ + 2 ≤ _
    omega
  · exact Nat.zero_le _

structure Packed (spec : ChunkSpec) (sec : Section) (chunks : List Chunk) : Prop where
  headingPath : ∀ chunk ∈ chunks, chunk.headingPath = sec.path
  contents : if sec.paragraphs = [] then
      chunks.map Chunk.content = if sectionLead spec sec = [] then [] else [trimEndUnits (sectionLead spec sec)]
    else ∃ groups : List (List (List Nat)), (∀ group ∈ groups, group ≠ []) ∧ groups.flatten = sec.paragraphs ∧
      chunks.map Chunk.content = (groupTexts spec.overlap [] groups).map (sectionLead spec sec ++ ·)
  size : ∀ chunk ∈ chunks, chunk.content.length ≤
    max spec.chunkSize
      (max ((sectionLead spec sec).length + 1) ((sectionLead spec sec).length + spec.overlap + 2 + longest sec.paragraphs))

variable {sec : Section} {lead : List Nat} {budget overlap : Nat}

/-- The chunk in the making with one more paragraph. -/
def candidate (current paragraph : List Nat) : List Nat :=
  if current = [] then paragraph else current ++ 0x0A :: 0x0A :: paragraph

theorem packParagraphs_join {current paragraph : List Nat} (rest : List (List Nat))
    (h : (candidate current paragraph).length ≤ budget ∨ current = []) :
    packParagraphs sec lead budget overlap current (paragraph :: rest) =
      packParagraphs sec lead budget overlap (candidate current paragraph) rest := if_pos h

theorem packParagraphs_close {current paragraph : List Nat} (rest : List (List Nat))
    (h : ¬ ((candidate current paragraph).length ≤ budget ∨ current = [])) :
    packParagraphs sec lead budget overlap current (paragraph :: rest) =
      { content := lead ++ current, headingPath := sec.path } ::
        packParagraphs sec lead budget overlap (carried overlap current ++ paragraph) rest := by
  rw [← nextWindowSeed_eq]
  exact if_neg h

theorem headingPath_packParagraphs (paragraphs : List (List Nat)) (current : List Nat) :
    ∀ chunk ∈ packParagraphs sec lead budget overlap current paragraphs, chunk.headingPath = sec.path := by
  induction paragraphs generalizing current with
  | nil =>
    intro chunk hchunk
    unfold packParagraphs at hchunk
    split at hchunk
    · rw [mem_singleton.mp hchunk]
    · cases hchunk
  | cons paragraph rest ih =>
    intro chunk hchunk
    by_cases hjoin : (candidate current paragraph).length ≤ budget ∨ current = []
    · rw [packParagraphs_join rest hjoin] at hchunk
      exact ih _ chunk hchunk
    rw [packParagraphs_close rest hjoin] at hchunk
    obtain rfl | hlater := mem_cons.mp hchunk
    · rfl
    · exact ih _ chunk hlater

theorem contents_packParagraphs (paragraphs : List (List Nat)) {carry : List Nat} {group : List (List Nat)}
    (hgroup : group ≠ []) (hcurrent : carry ++ joinParagraphs group ≠ []) (hparagraphs : ∀ p ∈ paragraphs, p ≠ []) :
    ∃ more groups, (∀ other ∈ groups, other ≠ []) ∧ more ++ List.flatten groups = paragraphs ∧
      (packParagraphs sec lead budget overlap (carry ++ joinParagraphs group) paragraphs).map Chunk.content =
        (groupTexts overlap carry ((group ++ more) :: groups)).map (lead ++ ·) := by
  induction paragraphs generalizing carry group with
  | nil =>
    refine ⟨[], [], fun _ h => (by cases h), rfl, ?_⟩
    unfold packParagraphs
    rw [if_pos hcurrent, append_nil]
    rfl
  | cons paragraph rest ih =>
    have hrest : ∀ p ∈ rest, p ≠ [] := fun p hp => hparagraphs p (mem_cons_of_mem _ hp)
    by_cases hjoin : (candidate (carry ++ joinParagraphs group) paragraph).length ≤ budget ∨
        carry ++ joinParagraphs group = []
    · -- the paragraph joins the group
      have hlonger : candidate (carry ++ joinParagraphs group) paragraph =
          carry ++ joinParagraphs (group ++ [paragraph]) := by
        unfold candidate
        rw [if_neg hcurrent, joinParagraphs_append hgroup, append_assoc]
      have hsome : carry ++ joinParagraphs (group ++ [paragraph]) ≠ [] := by
        rw [joinParagraphs_append hgroup]
        simp
      rw [packParagraphs_join rest hjoin, hlonger]
      obtain ⟨more, groups, hgroups, hall, hcontents⟩ := ih (by simp) hsome hrest
      refine ⟨paragraph :: more, groups, hgroups, by rw [← hall]; rfl, ?_⟩
      rw [hcontents, append_assoc]
      rfl
    -- it begins the next chunk
    rw [packParagraphs_close rest hjoin]
    have hfirst : paragraph ≠ [] := hparagraphs paragraph mem_cons_self
    have hseed : carried overlap (carry ++ joinParagraphs group) ++ joinParagraphs [paragraph] ≠ [] := by
      simp [joinParagraphs, hfirst]
    obtain ⟨more, groups, hgroups, hall, hcontents⟩ := ih (by simp) hseed hrest
    refine ⟨[], ([paragraph] ++ more) :: groups, ?_, ?_, ?_⟩
    · intro other hother
      obtain rfl | hlater := mem_cons.mp hother
      · simp
      · exact hgroups other hlater
    · rw [← hall]
      simp
    have hpacked : joinParagraphs [paragraph] = paragraph := by simp [joinParagraphs]
    rw [hpacked] at hcontents
    rw [map_cons, hcontents, append_nil]
    rfl

theorem size_packParagraphs (paragraphs : List (List Nat)) {current : List Nat} {bound : Nat}
    (hcurrent : current.length ≤ max budget bound) (hparagraphs : ∀ p ∈ paragraphs, overlap + 2 + p.length ≤ bound) :
    ∀ chunk ∈ packParagraphs sec lead budget overlap current paragraphs,
      chunk.content.length ≤ lead.length + max budget bound := by
  induction paragraphs generalizing current with
  | nil =>
    intro chunk hchunk
    unfold packParagraphs at hchunk
    split at hchunk
    · rw [mem_singleton.mp hchunk, length_append]
      omega
    · cases hchunk
  | cons paragraph rest ih =>
    have hrest : ∀ p ∈ rest, overlap + 2 + p.length ≤ bound := fun p hp => hparagraphs p (mem_cons_of_mem _ hp)
    have hfirst := hparagraphs paragraph mem_cons_self
    intro chunk hchunk
    by_cases hjoin : (candidate current paragraph).length ≤ budget ∨ current = []
    · rw [packParagraphs_join rest hjoin] at hchunk
      refine ih ?_ hrest chunk hchunk
      obtain hbudget | hempty := hjoin
      · omega
      unfold candidate
      rw [if_pos hempty]
      omega
    rw [packParagraphs_close rest hjoin] at hchunk
    obtain rfl | hlater := mem_cons.mp hchunk
    · rw [length_append]
      omega
    refine ih ?_ hrest chunk hlater
    have hcarry := length_carried overlap current
    rw [length_append]
    omega

theorem ne_nil_of_mem_paragraphs {p : List Nat} (h : p ∈ sec.paragraphs) : p ≠ [] :=
  of_decide_eq_true (mem_filter.mp h).2

theorem length_trimEndUnits (text : List Nat) : (trimEndUnits text).length ≤ text.length := by
  unfold trimEndUnits
  have hle := (dropWhile_sublist isTrimmedUnit (l := text.reverse)).length_le
  simpa using hle

theorem packSection_packed (spec : ChunkSpec) (sec : Section) :
    Packed spec sec
      (packSection sec (sectionLead spec sec) (max 1 (spec.chunkSize - (sectionLead spec sec).length)) spec.overlap) := by
  unfold packSection
  dsimp only
  show Packed spec sec (if sec.paragraphs = [] then _ else packParagraphs sec _ _ _ [] sec.paragraphs)
  by_cases hnone : sec.paragraphs = []
  · rw [if_pos hnone]
    by_cases hlead : sectionLead spec sec = []
    · rw [if_neg (not_not.mpr hlead)]
      exact
        { headingPath := fun _ h => by cases h
          contents := by
            rw [if_pos hnone, if_pos hlead]
            rfl
          size := fun _ h => by cases h }
    rw [if_pos hlead]
    refine { headingPath := ?_, contents := ?_, size := ?_ }
    · intro chunk hchunk
      rw [mem_singleton.mp hchunk]
    · rw [if_pos hnone, if_neg hlead]
      rfl
    intro chunk hchunk
    rw [mem_singleton.mp hchunk]
    have hle := length_trimEndUnits (sectionLead spec sec)
    show (trimEndUnits (sectionLead spec sec)).length ≤ _
    omega
  rw [if_neg hnone]
  refine { headingPath := headingPath_packParagraphs _ _, contents := ?_, size := ?_ }
  · rw [if_neg hnone]
    cases hparagraphs : sec.paragraphs with
    | nil => exact absurd hparagraphs hnone
    | cons paragraph rest =>
      have hsome : ∀ p ∈ paragraph :: rest, p ≠ [] := by
        rw [← hparagraphs]
        exact fun p => ne_nil_of_mem_paragraphs
      have hfirst : candidate [] paragraph = [] ++ joinParagraphs [paragraph] := by simp [candidate, joinParagraphs]
      have hcurrent : [] ++ joinParagraphs [paragraph] ≠ [] := by
        rw [← hfirst]
        exact hsome paragraph mem_cons_self
      obtain ⟨more, groups, hgroups, hall, hcontents⟩ :=
        contents_packParagraphs rest (by simp) hcurrent fun p hp => hsome p (mem_cons_of_mem _ hp)
      refine ⟨([paragraph] ++ more) :: groups, ?_, ?_, ?_⟩
      · intro group hgroup
        obtain rfl | hlater := mem_cons.mp hgroup
        · simp
        · exact hgroups group hlater
      · rw [← hall]
        simp
      · rw [packParagraphs_join rest (.inr rfl), hfirst]
        exact hcontents
  intro chunk hchunk
  have hsize := @size_packParagraphs sec (sectionLead spec sec) _ spec.overlap sec.paragraphs []
    (spec.overlap + 2 + longest sec.paragraphs) (Nat.zero_le _)
    (fun p hp => Nat.add_le_add_left (length_le_longest hp) _) chunk hchunk
  omega

/-- A document is cut at its headings, and each section packed in order. -/
theorem chunkMarkdown_eq (doc : RawDoc) (spec : ChunkSpec) :
    ∃ chunked : List (Segment × List Chunk),
      chunked.map Prod.fst = (outline (splitLines doc.content)).filter Segment.kept ∧
        chunkMarkdown doc spec = chunked.flatMap Prod.snd ∧
          ∀ pair ∈ chunked, Packed spec pair.1.section pair.2 := by
  let pack : Segment → List Chunk := fun segment =>
    packSection segment.section (sectionLead spec segment.section)
      (max 1 (spec.chunkSize - (sectionLead spec segment.section).length)) spec.overlap
  refine ⟨((outline (splitLines doc.content)).filter Segment.kept).map fun segment => (segment, pack segment), ?_, ?_, ?_⟩
  · rw [map_map]
    exact map_id _
  · unfold chunkMarkdown
    rw [splitByHeadings_eq, flatMap_map, flatMap_map]
    rfl
  intro pair hpair
  obtain ⟨segment, -, rfl⟩ := mem_map.mp hpair
  exact packSection_packed spec segment.section

end

def plainLines (text : List Nat) : List (List Nat) := (splitLines text).filter fun line => (parseHeading line).isNone

/-- Every line that is no heading is in exactly one of the sections. -/
def LinesPlaced (text : List Nat) : Prop :=
  ∃ groups : List (List (List Nat)),
    List.Forall₂ (fun sec group => sec.body = trimUnits ([0x0A].intercalate group)) (splitByHeadings text) groups ∧
      groups.flatten = plainLines text

/-- The one line of an empty document is in no section. -/
theorem empty_line_not_placed : ¬ ∀ text, LinesPlaced text := by
  intro h
  obtain ⟨groups, hgroups, hlines⟩ := h []
  have hnone : splitByHeadings [] = [] := by decide
  have hplain : plainLines [] = [[]] := by decide
  rw [hnone] at hgroups
  cases hgroups
  rw [hplain] at hlines
  cases hlines

/-- The segments of a document have each line that is no heading once, the first of them before any heading. They are
the sections, except the first one where it is blank: the path is the chain of the open headings, by rising levels.
The paragraphs of a section are in its chunks in order, after what each chunk carries over, and within the size. -/
theorem chunkMarkdown_spec (doc : RawDoc) (spec : ChunkSpec) :
    (outline (splitLines doc.content)).flatMap (·.lines) = plainLines doc.content ∧
      (∃ first later, outline (splitLines doc.content) = first :: later ∧ first.headings = [] ∧
        ∀ segment ∈ later, segment.headings ≠ []) ∧
      (∀ segment ∈ outline (splitLines doc.content),
        (openHeadings segment.headings).Pairwise fun first later => first.level < later.level) ∧
      splitByHeadings doc.content = ((outline (splitLines doc.content)).filter Segment.kept).map Segment.section ∧
      ∃ chunked : List (Segment × List Chunk),
        chunked.map Prod.fst = (outline (splitLines doc.content)).filter Segment.kept ∧
          chunkMarkdown doc spec = chunked.flatMap Prod.snd ∧
            ∀ pair ∈ chunked, Packed spec pair.1.section pair.2 :=
  ⟨lines_outlineFrom [] [] _, outlineFrom_cons [] _, fun segment _ => openHeadings_increasing segment.headings,
    splitByHeadings_eq doc.content, chunkMarkdown_eq doc spec⟩

end llamactl.rag
