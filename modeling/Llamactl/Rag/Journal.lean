import Llamactl.Collections.OrderedMap
import Llamactl.Effect.Transition
import Llamactl.Js.JsonPrefix
import Llamactl.Js.Number
import Mathlib.Data.List.DropRight

open collections js List effect

namespace llamactl.rag

/-! The JSONL journal of an ingestion pipeline. Texts are lists of UTF-16 code units. -/

structure EstimatedCost where
  usd : Numeral
  currency : List Nat
  source : List Nat

/-- A `doc-ingested` or `doc-would-ingest` entry. -/
structure DocEntry where
  ts : List Nat
  source : List Nat
  docId : List Nat
  sha : List Nat
  chunks : Nat
  /-- older lines predate the field -/
  chunkIds : Option (List (List Nat))

inductive JournalEntry where
  | runStarted (ts specHash : List Nat) (sources : List (List Nat))
  | sourceStarted (ts source : List Nat)
  | docSkipped (ts source docId : List Nat)
  | docIngested (doc : DocEntry)
  | docWouldIngest (doc : DocEntry)
  | sourceComplete (ts source : List Nat) (docs chunks errors : Nat)
  | runComplete (ts : List Nat) (totalDocs totalChunks : Nat) (elapsedMs : Numeral) (estimatedCost : Option EstimatedCost)
  | error (ts : List Nat) (source docId : Option (List Nat)) (message : List Nat)
  /-- the scheduler's entries, which share the file -/
  | scheduleFired (ts schedule nextAt : List Nat)
  | scheduleSkipped (ts reason schedule : List Nat)

def field (key : String) (value : Json) : List Nat × Json := (units key, value)

def strings (texts : List (List Nat)) : Json := .arr (texts.map .str)

def number (n : Nat) : Json := .num (Numeral.ofNat n)

/-- A property that is left out where it is undefined. -/
def optional (key : String) (value : Option Json) : List (List Nat × Json) := (value.map (field key)).toList

def DocEntry.fields (doc : DocEntry) : List (List Nat × Json) :=
  [field "ts" (.str doc.ts), field "source" (.str doc.source), field "doc_id" (.str doc.docId),
    field "sha" (.str doc.sha), field "chunks" (number doc.chunks)] ++
    optional "chunk_ids" (doc.chunkIds.map strings)

def EstimatedCost.json (cost : EstimatedCost) : Json :=
  .obj [field "usd" (.num cost.usd), field "currency" (.str cost.currency), field "source" (.str cost.source)]

def JournalEntry.kind : JournalEntry → String
  | .runStarted .. => "run-started"
  | .sourceStarted .. => "source-started"
  | .docSkipped .. => "doc-skipped"
  | .docIngested _ => "doc-ingested"
  | .docWouldIngest _ => "doc-would-ingest"
  | .sourceComplete .. => "source-complete"
  | .runComplete .. => "run-complete"
  | .error .. => "error"
  | .scheduleFired .. => "schedule-fired"
  | .scheduleSkipped .. => "schedule-skipped"

/-- The entry's properties after its kind. -/
def JournalEntry.fields : JournalEntry → List (List Nat × Json)
  | .runStarted ts specHash sources =>
    [field "ts" (.str ts), field "spec_hash" (.str specHash), field "sources" (strings sources)]
  | .sourceStarted ts source => [field "ts" (.str ts), field "source" (.str source)]
  | .docSkipped ts source docId =>
    [field "ts" (.str ts), field "source" (.str source), field "doc_id" (.str docId),
      field "reason" (.str (units "duplicate"))]
  | .docIngested doc => doc.fields
  | .docWouldIngest doc => doc.fields
  | .sourceComplete ts source docs chunks errors =>
    [field "ts" (.str ts), field "source" (.str source), field "docs" (number docs), field "chunks" (number chunks),
      field "errors" (number errors)]
  | .runComplete ts totalDocs totalChunks elapsedMs estimatedCost =>
    [field "ts" (.str ts), field "total_docs" (number totalDocs), field "total_chunks" (number totalChunks),
      field "elapsed_ms" (.num elapsedMs)] ++ optional "estimated_cost" (estimatedCost.map EstimatedCost.json)
  | .error ts source docId message =>
    field "ts" (.str ts) :: optional "source" (source.map .str) ++ field "message" (.str message) ::
      optional "doc_id" (docId.map .str)
  | .scheduleFired ts schedule nextAt =>
    [field "ts" (.str ts), field "schedule" (.str schedule), field "next_at" (.str nextAt)]
  | .scheduleSkipped ts reason schedule =>
    [field "ts" (.str ts), field "reason" (.str reason), field "schedule" (.str schedule)]

def JournalEntry.json (entry : JournalEntry) : Json :=
  .obj (field "kind" (.str (units entry.kind)) :: entry.fields)

/-- The line that `append` writes. -/
def JournalEntry.line (entry : JournalEntry) : List Nat := stringify entry.json ++ [0x0A]

structure PriorIngestion where
  sha : List Nat
  /-- as the file holds them: the loader does not look at the elements -/
  chunkIds : List Json

/-- `key(source, doc_id, sha)` -/
def key (source docId sha : List Nat) : List Nat := source ++ 0 :: docId ++ 0 :: sha

def docKey (source docId : List Nat) : List Nat := source ++ 0 :: docId

structure JournalIndexes where
  seen : List (List Nat) := []
  prior : OrderedMap (List Nat) (List PriorIngestion) := OrderedMap.empty

def JournalIndexes.add (indexes : JournalIndexes) (source docId sha : List Nat) (chunkIds : List Json) :
    JournalIndexes where
  seen := if key source docId sha ∈ indexes.seen then indexes.seen else indexes.seen ++ [key source docId sha]
  prior := indexes.prior.set (docKey source docId)
    ((indexes.prior.get? (docKey source docId)).getD [] ++ [⟨sha, chunkIds⟩])

def isTrimmedUnit (u : Nat) : Bool :=
  u ∈ [0x09, 0x0A, 0x0B, 0x0C, 0x0D, 0x20, 0xA0, 0x1680, 0x2028, 0x2029, 0x202F, 0x205F, 0x3000, 0xFEFF] ||
    (0x2000 ≤ u && u ≤ 0x200A)

/-- `line.trim()` -/
def trimUnits (text : List Nat) : List Nat :=
  ((text.dropWhile isTrimmedUnit).reverse.dropWhile isTrimmedUnit).reverse

def stringAt (key : String) (value : Json) : Option (List Nat) :=
  match value.get? key with
  | some (.str text) => some text
  | _ => none

/-- An entry read back: source, document, sha and the chunk ids where they are an array. -/
def parseDocIngestedLine (line : List Nat) : Option (List Nat × List Nat × List Nat × List Json) :=
  let trimmed := trimUnits line
  if trimmed = [] then none
  else do
    let entry ← parse trimmed
    let kind ← stringAt "kind" entry
    if kind ≠ units "doc-ingested" then none
    else
      let source ← stringAt "source" entry
      let docId ← stringAt "doc_id" entry
      let sha ← stringAt "sha" entry
      let chunkIds := match entry.get? "chunk_ids" with
        | some (.arr items) => items
        | _ => []
      some (source, docId, sha, chunkIds)

/-- The body of the loader's loop. -/
def indexLine (indexes : JournalIndexes) (line : List Nat) : JournalIndexes :=
  match parseDocIngestedLine line with
  | none => indexes
  | some (source, docId, sha, chunkIds) => indexes.add source docId sha chunkIds

/-- `loadIndexes` of the file's text; an absent file has no entries. -/
def loadIndexes : Option (List Nat) → JournalIndexes
  | none => {}
  | some raw => (raw.splitOn 0x0A).foldl indexLine {}

def JournalIndexes.seen? (indexes : JournalIndexes) (source docId sha : List Nat) : Bool :=
  key source docId sha ∈ indexes.seen

def JournalIndexes.priorIngestions (indexes : JournalIndexes) (source docId : List Nat) : List PriorIngestion :=
  (indexes.prior.get? (docKey source docId)).getD []

def JournalIndexes.append (indexes : JournalIndexes) : JournalEntry → JournalIndexes
  | .docIngested doc => indexes.add doc.source doc.docId doc.sha ((doc.chunkIds.getD []).map .str)
  | _ => indexes

/-! What later journals see of the entries appended before a crash. -/

/-- The file, and the entries whose append returned or was at least called. -/
structure JournalWorld where
  file : Option (List Nat) := none
  returned : List JournalEntry := []
  called : List JournalEntry := []

inductive JournalAction where
  | openJournal
  | append (entry : JournalEntry)
  /-- the process dies within an append, after so many units of the line -/
  | crash (entry : JournalEntry) (written : Nat)

def JournalWorld.text (w : JournalWorld) : List Nat := w.file.getD []

def journalStep (w : JournalWorld) : JournalAction → Option JournalWorld
  | .openJournal => some { w with file := some w.text }
  | .append entry => some
      { file := some (w.text ++ entry.line)
        returned := w.returned ++ [entry]
        called := w.called ++ [entry] }
  | .crash entry written => some
      { w with
        file := some (w.text ++ entry.line.take written)
        called := w.called ++ [entry] }

/-- Every ingestion that was recorded is in the indexes of a journal opened now, with its chunk ids, and
nothing else is in them than ingestions that were appended. -/
structure Durable (w : JournalWorld) : Prop where
  seen : ∀ doc, .docIngested doc ∈ w.returned →
    (loadIndexes w.file).seen? doc.source doc.docId doc.sha = true
  prior : ∀ doc, .docIngested doc ∈ w.returned →
    ⟨doc.sha, (doc.chunkIds.getD []).map .str⟩ ∈ (loadIndexes w.file).priorIngestions doc.source doc.docId
  seen_called : ∀ k ∈ (loadIndexes w.file).seen,
    ∃ doc, .docIngested doc ∈ w.called ∧ k = key doc.source doc.docId doc.sha
  prior_called : ∀ k p, p ∈ ((loadIndexes w.file).prior.get? k).getD [] →
    ∃ doc, .docIngested doc ∈ w.called ∧ k = docKey doc.source doc.docId ∧
      p = ⟨doc.sha, (doc.chunkIds.getD []).map .str⟩

def BeginsLine (w : JournalWorld) : JournalAction → Prop
  | .openJournal => True
  | .append _ => w.text = [] ∨ w.text.getLast? = some 0x0A
  | .crash _ _ => w.text = [] ∨ w.text.getLast? = some 0x0A

section

theorem stringifyFields_last (fields : List (List Nat × Json)) :
    ∃ init, stringifyFields fields = init ++ [0x7D] := by
  induction fields with
  | nil => exact ⟨[], by simp [stringifyFields]⟩
  | cons field fields ih =>
    obtain ⟨init, hinit⟩ := ih
    obtain ⟨key, value⟩ := field
    rw [stringifyFields, hinit]
    exact ⟨_, (append_assoc ..).symm⟩

theorem entry_text (entry : JournalEntry) : ∃ body, stringify entry.json = 0x7B :: body ++ [0x7D] := by
  obtain ⟨init, hinit⟩ := stringifyFields_last entry.fields
  unfold JournalEntry.json
  rw [field, stringify, hinit]
  exact ⟨_, by rw [← append_assoc]; rfl⟩

theorem trimUnits_braces (body : List Nat) : trimUnits (0x7B :: body ++ [0x7D]) = 0x7B :: body ++ [0x7D] := by
  have hopen : isTrimmedUnit 0x7B = false := by decide
  have hclose : isTrimmedUnit 0x7D = false := by decide
  simp [trimUnits, hopen, hclose]

theorem trimUnits_prefix {body text : List Nat} (h : text <+: 0x7B :: body) : trimUnits text <+: text := by
  cases text with
  | nil => exact prefix_refl _
  | cons u text =>
    obtain ⟨rfl, -⟩ := cons_prefix_cons.mp h
    have hopen : isTrimmedUnit 0x7B = false := by decide
    unfold trimUnits
    rw [dropWhile_cons, if_neg (by simp [hopen])]
    exact rdropWhile_prefix ..

theorem parseDocIngestedLine_torn {entry : JournalEntry} {text more : List Nat} (hmore : more ≠ [])
    (htext : text ++ more = stringify entry.json) : parseDocIngestedLine text = none := by
  obtain ⟨body, hbody⟩ := entry_text entry
  have hinitial : text <+: 0x7B :: (body ++ [0x7D]) := ⟨more, htext.trans hbody⟩
  obtain ⟨blank, hblank⟩ := trimUnits_prefix hinitial
  have hrest : trimUnits text ++ (blank ++ more) = stringify entry.json := by
    rw [← append_assoc, hblank, htext]
  have hparse : parse (trimUnits text) = none := parse_prefix_obj (by simp [hmore]) hrest
  simp [parseDocIngestedLine, hparse]

/-- Of the properties of an entry none is written under the key of another. -/
theorem get?_optional {key other : String} {value : Option Json} {fields : List (List Nat × Json)} (hne : other ≠ key) :
    (Json.obj (fields ++ optional other value)).get? key = (Json.obj fields).get? key := by
  cases value with
  | none => simp [optional]
  | some value => simp [optional, Json.get?, field, units_inj, hne]

theorem kind_json (entry : JournalEntry) : stringAt "kind" entry.json = some (units entry.kind) := by
  cases entry with
  | runComplete ts totalDocs totalChunks elapsedMs estimatedCost =>
    simp only [stringAt, JournalEntry.json, JournalEntry.fields, ← cons_append]
    rw [get?_optional (by decide)]
    simp [Json.get?, field, units_inj]
  | docIngested doc | docWouldIngest doc =>
    simp only [stringAt, JournalEntry.json, JournalEntry.fields, DocEntry.fields, ← cons_append]
    rw [get?_optional (by decide)]
    simp [Json.get?, field, units_inj]
  | error ts source docId message =>
    cases source <;> cases docId <;>
      simp [stringAt, JournalEntry.json, JournalEntry.fields, optional, Json.get?, field, units_inj]
  | runStarted | sourceStarted | docSkipped | sourceComplete | scheduleFired | scheduleSkipped =>
    simp [stringAt, JournalEntry.json, JournalEntry.fields, Json.get?, field, units_inj]

theorem kind_docIngested {entry : JournalEntry} (hkind : entry.kind = "doc-ingested") :
    ∃ doc, entry = .docIngested doc := by
  cases entry with
  | docIngested doc => exact ⟨doc, rfl⟩
  | _ => simp [JournalEntry.kind] at hkind

theorem docIngested_json (doc : DocEntry) :
    stringAt "source" (JournalEntry.docIngested doc).json = some doc.source ∧
    stringAt "doc_id" (JournalEntry.docIngested doc).json = some doc.docId ∧
    stringAt "sha" (JournalEntry.docIngested doc).json = some doc.sha ∧
    (JournalEntry.docIngested doc).json.get? "chunk_ids" = doc.chunkIds.map strings := by
  simp only [stringAt, JournalEntry.json, JournalEntry.fields, DocEntry.fields, ← cons_append]
  refine ⟨?_, ?_, ?_, ?_⟩
  case refine_4 =>
    cases doc.chunkIds with
    | none => simp [optional, Json.get?, field, units_inj, JournalEntry.kind]
    | some ids => simp [optional, Json.get?, field]
  all_goals
    rw [get?_optional (by decide)]
    simp [Json.get?, field, units_inj]

theorem indexLine_entry (indexes : JournalIndexes) (entry : JournalEntry) :
    indexLine indexes (stringify entry.json) = indexes.append entry := by
  obtain ⟨body, hbody⟩ := entry_text entry
  have htrim : trimUnits (stringify entry.json) = stringify entry.json := by
    rw [hbody]
    exact trimUnits_braces body
  have hne : stringify entry.json ≠ [] := by simp [hbody]
  unfold indexLine parseDocIngestedLine
  dsimp only
  rw [htrim, if_neg hne, parse_stringify]
  by_cases hkind : entry.kind = "doc-ingested"
  · obtain ⟨doc, rfl⟩ := kind_docIngested hkind
    obtain ⟨hsource, hdoc, hsha, hids⟩ := docIngested_json doc
    cases hchunks : doc.chunkIds with
    | none => simp [kind_json, hkind, hsource, hdoc, hsha, hids, JournalIndexes.append, hchunks]
    | some ids => simp [kind_json, hkind, hsource, hdoc, hsha, hids, JournalIndexes.append, hchunks, strings]
  have hother : indexes.append entry = indexes := by
    cases entry with
    | docIngested doc => exact absurd rfl hkind
    | _ => rfl
  simp [kind_json, units_inj, hkind, hother]

theorem loadIndexes_lines (entries : List JournalEntry) {tail : List Nat} (htail : 0x0A ∉ tail) :
    loadIndexes (some (entries.flatMap JournalEntry.line ++ tail)) =
      indexLine (entries.foldl JournalIndexes.append {}) tail := by
  have hsplit : (entries.flatMap JournalEntry.line ++ tail).splitOn 0x0A =
      entries.map (fun entry => stringify entry.json) ++ [tail] := by
    induction entries with
    | nil => simpa using splitOn_eq_singleton htail
    | cons entry entries ih =>
      have hline : ((entry :: entries).flatMap JournalEntry.line ++ tail) =
          stringify entry.json ++ 0x0A :: (entries.flatMap JournalEntry.line ++ tail) := by
        simp [JournalEntry.line]
      rw [hline, splitOn_append_cons_self_of_not_mem (newline_not_mem_stringify _), ih]
      rfl
  show ((entries.flatMap JournalEntry.line ++ tail).splitOn 0x0A).foldl indexLine {} = _
  rw [hsplit, foldl_append, foldl_map]
  simp only [indexLine_entry, foldl_cons, foldl_nil]


end

section

variable {k : List Nat}

theorem mem_seen_append {indexes : JournalIndexes} {entry : JournalEntry} :
    k ∈ (indexes.append entry).seen ↔
      k ∈ indexes.seen ∨ ∃ doc, entry = .docIngested doc ∧ k = key doc.source doc.docId doc.sha := by
  cases entry with
  | docIngested doc =>
    simp only [JournalIndexes.append, JournalIndexes.add, JournalEntry.docIngested.injEq, exists_eq_left']
    split
    · rename_i hmem
      constructor
      · exact .inl
      rintro (h | rfl)
      · exact h
      · exact hmem
    · simp
  | _ => simp [JournalIndexes.append]

theorem mem_prior_append {indexes : JournalIndexes} {entry : JournalEntry} {p : PriorIngestion} :
    p ∈ ((indexes.append entry).prior.get? k).getD [] ↔ p ∈ (indexes.prior.get? k).getD [] ∨
      ∃ doc, entry = .docIngested doc ∧ k = docKey doc.source doc.docId ∧
        p = ⟨doc.sha, (doc.chunkIds.getD []).map .str⟩ := by
  cases entry with
  | docIngested doc =>
    simp only [JournalIndexes.append, JournalIndexes.add, OrderedMap.get?_set, JournalEntry.docIngested.injEq,
      exists_eq_left']
    by_cases hk : k = docKey doc.source doc.docId
    · subst hk
      simp
    · simp [hk]
  | _ => simp [JournalIndexes.append]

theorem mem_seen_entries {entries : List JournalEntry} :
    k ∈ (entries.foldl JournalIndexes.append {}).seen ↔
      ∃ doc, .docIngested doc ∈ entries ∧ k = key doc.source doc.docId doc.sha := by
  induction entries using List.reverseRecOn with
  | nil => simp
  | append_singleton entries entry ih =>
    rw [foldl_append, foldl_cons, foldl_nil, mem_seen_append, ih]
    simp only [mem_append, mem_singleton]
    grind

theorem mem_prior_entries {entries : List JournalEntry} {p : PriorIngestion} :
    p ∈ ((entries.foldl JournalIndexes.append {}).prior.get? k).getD [] ↔
      ∃ doc, .docIngested doc ∈ entries ∧ k = docKey doc.source doc.docId ∧
        p = ⟨doc.sha, (doc.chunkIds.getD []).map .str⟩ := by
  induction entries using List.reverseRecOn with
  | nil => simp
  | append_singleton entries entry ih =>
    rw [foldl_append, foldl_cons, foldl_nil, mem_prior_append, ih]
    simp only [mem_append, mem_singleton]
    grind

end

/-- The file is whole lines of entries that were appended, every one that returned among them, and at
most the beginning of one more. -/
structure Lines (w : JournalWorld) (entries : List JournalEntry) (tail : List Nat) : Prop where
  text : w.text = entries.flatMap JournalEntry.line ++ tail
  returned : ∀ entry ∈ w.returned, entry ∈ entries
  called : ∀ entry ∈ entries, entry ∈ w.called
  torn : tail ≠ [] → ∃ entry ∈ w.called, tail <+: stringify entry.json

theorem loadIndexes_text (w : JournalWorld) : loadIndexes w.file = loadIndexes (some w.text) := by
  unfold JournalWorld.text
  cases w.file with
  | some text => rfl
  | none => rfl

variable {w : JournalWorld} {entries : List JournalEntry} {tail : List Nat}

theorem Lines.load (h : Lines w entries tail) :
    ∃ all : List JournalEntry, (∀ entry ∈ entries, entry ∈ all) ∧ (∀ entry ∈ all, entry ∈ w.called) ∧
      loadIndexes w.file = all.foldl JournalIndexes.append {} := by
  rw [loadIndexes_text, h.text]
  by_cases hempty : tail = []
  · subst hempty
    refine ⟨entries, fun _ => id, h.called, ?_⟩
    rw [loadIndexes_lines entries not_mem_nil]
    rfl
  obtain ⟨entry, hcalled, more, hmore⟩ := h.torn hempty
  have hnewline : 0x0A ∉ tail := by
    intro hmem
    apply newline_not_mem_stringify entry.json
    rw [← hmore]
    exact mem_append_left _ hmem
  rw [loadIndexes_lines entries hnewline]
  by_cases hwhole : more = []
  · subst hwhole
    rw [append_nil] at hmore
    refine ⟨entries ++ [entry], fun _ hmem => mem_append_left _ hmem, ?_, ?_⟩
    · intro other hother
      rcases mem_append.mp hother with hmem | hlast
      · exact h.called other hmem
      · exact mem_singleton.mp hlast ▸ hcalled
    · rw [hmore, indexLine_entry, foldl_append]
      rfl
  · refine ⟨entries, fun _ => id, h.called, ?_⟩
    simp [indexLine, parseDocIngestedLine_torn hwhole hmore]

theorem Lines.durable (h : Lines w entries tail) :
    Durable w := by
  obtain ⟨all, hentries, hcalled, hload⟩ := h.load
  constructor
  case seen =>
    intro doc hdoc
    rw [hload, JournalIndexes.seen?, decide_eq_true_eq, mem_seen_entries]
    exact ⟨doc, hentries _ (h.returned _ hdoc), rfl⟩
  case prior =>
    intro doc hdoc
    rw [hload, JournalIndexes.priorIngestions, mem_prior_entries]
    exact ⟨doc, hentries _ (h.returned _ hdoc), rfl, rfl⟩
  case seen_called =>
    intro k hk
    rw [hload, mem_seen_entries] at hk
    obtain ⟨doc, hdoc, heq⟩ := hk
    exact ⟨doc, hcalled _ hdoc, heq⟩
  case prior_called =>
    intro k p hp
    rw [hload, mem_prior_entries] at hp
    obtain ⟨doc, hdoc, heq⟩ := hp
    exact ⟨doc, hcalled _ hdoc, heq⟩

theorem Lines.tail_eq (h : Lines w entries tail)
    (hbegins : w.text = [] ∨ w.text.getLast? = some 0x0A) : tail = [] := by
  by_contra hne
  obtain ⟨entry, -, more, hmore⟩ := h.torn hne
  have hlast : w.text.getLast? = tail.getLast? := by
    rw [h.text, getLast?_append_of_ne_nil _ hne]
  rcases hbegins with hempty | hnewline
  · rw [h.text] at hempty
    exact hne (append_eq_nil_iff.mp hempty).2
  rw [hlast] at hnewline
  apply newline_not_mem_stringify entry.json
  rw [← hmore]
  exact mem_append_left _ (mem_of_getLast? hnewline)

theorem Lines.add {next : JournalWorld} (entry : JournalEntry) (h : Lines w entries [])
    (htext : next.text = w.text ++ entry.line) (hcalled : next.called = w.called ++ [entry])
    (hreturned : ∀ other ∈ next.returned, other ∈ w.returned ∨ other = entry) : Lines next (entries ++ [entry]) [] where
  text := by
    rw [htext, h.text]
    simp
  returned := by
    intro other hother
    rcases hreturned other hother with hmem | rfl
    · exact mem_append_left _ (h.returned other hmem)
    · simp
  called := by
    intro other hother
    rw [hcalled]
    rcases mem_append.mp hother with hmem | hlast
    · exact mem_append_left _ (h.called other hmem)
    · exact mem_append_right _ hlast
  torn := fun hne => absurd rfl hne

theorem Lines.step {next : JournalWorld} {action : JournalAction}
    (h : Lines w entries tail) (hbegins : BeginsLine w action) (hstep : journalStep w action = some next) :
    ∃ entries' tail', Lines next entries' tail' := by
  cases action with
  | openJournal =>
    cases hstep
    exact ⟨entries, tail, h.text, h.returned, h.called, h.torn⟩
  | append entry =>
    cases hstep
    obtain rfl := h.tail_eq hbegins
    refine ⟨entries ++ [entry], [], h.add entry rfl rfl ?_⟩
    intro other hother
    simpa using hother
  | crash entry written =>
    cases hstep
    obtain rfl := h.tail_eq hbegins
    by_cases hwhole : entry.line.length ≤ written
    · refine ⟨entries ++ [entry], [], h.add entry ?_ rfl (fun other hother => .inl hother)⟩
      exact congrArg (w.text ++ ·) (take_of_length_le hwhole)
    refine ⟨entries, entry.line.take written, ?_, h.returned, ?_, ?_⟩
    · show w.text ++ entry.line.take written = _
      rw [h.text, append_nil]
    · exact fun other hother => mem_append_left _ (h.called other hother)
    intro _
    refine ⟨entry, by simp, ?_⟩
    have hshort : written ≤ (stringify entry.json).length := by
      simp only [JournalEntry.line, length_append, length_singleton] at hwhole
      omega
    rw [JournalEntry.line, take_append_of_le_length hshort]
    exact take_prefix ..

/-- A journal survives crashes in every run in which no append begins in the middle of a line. -/
theorem journal_durable (actions : List JournalAction) (w : JournalWorld)
    (halong : Along journalStep BeginsLine {} actions) (hrun : run journalStep {} actions = some w) : Durable w := by
  have hkeep : ∀ s action next, (∃ entries tail, Lines s entries tail) → BeginsLine s action →
      journalStep s action = some next → ∃ entries tail, Lines next entries tail := by
    rintro s action next ⟨entries, tail, h⟩ hbegins hstep
    exact h.step hbegins hstep
  have hinit : ∃ entries tail, Lines {} entries tail :=
    ⟨[], [], rfl, nofun, nofun, fun hne => absurd rfl hne⟩
  obtain ⟨entries, tail, h⟩ := run_invariant hkeep hinit halong hrun
  exact h.durable

section

def sampleDoc : DocEntry where
  ts := units "2026-01-01T00:00:00.000Z"
  source := units "docs:0:filesystem"
  docId := units "a.md"
  sha := units "aa"
  chunks := 1
  chunkIds := some [units "a.md#0"]

/-- An append that returned, and then one that a crash tears after seven units. -/
def tornLast : List JournalAction :=
  [.openJournal, .append (.docIngested sampleDoc), .crash (.docIngested sampleDoc) 7, .openJournal]

theorem journal_durable_torn : ∃ w, run journalStep {} tornLast = some w ∧ Durable w := by
  refine ⟨_, rfl, ?_⟩
  apply journal_durable tornLast _ _ rfl
  refine ⟨trivial, fun _ h => ?_⟩
  cases h
  refine ⟨.inl rfl, fun _ h => ?_⟩
  cases h
  refine ⟨.inr (by decide +kernel), fun _ h => ?_⟩
  cases h
  exact ⟨trivial, fun _ _ => trivial⟩

/-- The first append is torn after one unit, and the next process appends to that line. -/
def tornFirst : List JournalAction :=
  [.crash (.docIngested sampleDoc) 1, .openJournal, .append (.docIngested sampleDoc)]

theorem journal_loses_entry :
    ∃ w, run journalStep {} tornFirst = some w ∧ .docIngested sampleDoc ∈ w.returned ∧
      (loadIndexes w.file).seen = [] ∧ ¬ Durable w := by
  refine ⟨_, rfl, by simp, by decide +kernel, ?_⟩
  intro hdurable
  have hseen := hdurable.seen sampleDoc (by simp)
  revert hseen
  decide +kernel

end

end llamactl.rag
