import Llamactl.Rag.Replace

open collections effect js List

namespace llamactl.rag

/-! The sources of one pipeline, which store into one collection. -/

section

/-- `relative(from, to)` of resolved paths, by their segments. -/
def relativeSegments : List (List Nat) → List (List Nat) → List (List Nat)
  | r :: root, p :: path =>
    if r = p then relativeSegments root path
    else List.replicate (root.length + 1) (units "..") ++ p :: path
  | root, path => List.replicate root.length (units "..") ++ path

/-- A scanned file; one that is unreadable or binary has no text. -/
structure ScannedFile where
  path : List (List Nat)
  text : Option (List Nat)

def filesystemDocId (root path : List (List Nat)) : List Nat :=
  let rel := [0x2F].intercalate (relativeSegments root path)
  if rel = [] then 0x2F :: [0x2F].intercalate path else rel

/-- The documents that the fetcher yields of the files it scans. -/
def filesystemFetcher (root : List (List Nat)) (files : List ScannedFile) : List RawDoc :=
  files.filterMap fun file => file.text.map fun content => ⟨filesystemDocId root file.path, content⟩

end

/-- The part of a manifest that the runtime reads. -/
structure PipelineManifest where
  name : List Nat
  sources : List SourceKind
  transforms : List ChunkSpec
  onDuplicate : OnDuplicate

def PipelineManifest.args (manifest : PipelineManifest) (index : Nat) (kind : SourceKind) : SourceArgs :=
  ⟨sourceLabel manifest.name index kind, manifest.transforms, manifest.onDuplicate⟩

/-- A document of the pipeline: the index of its source, and its id there. -/
structure DocumentKey where
  source : Nat
  id : List Nat
  deriving DecidableEq

inductive AdapterCall where
  | store (ids : List (List Nat))
  | delete (ids : List Json)

/-- The call that the next step of a task makes. -/
def adapterCall (args : SourceArgs) (w : IngestWorld) (doc : RawDoc) : Phase → Option AdapterCall
  | .replacing _ =>
    if args.onDuplicate = .replace ∧ priorChunkIds args w doc ≠ [] then some (.delete (priorChunkIds args w doc))
    else none
  | .storing _ _ (c :: rest) => some (.store (((c :: rest).take BATCH_SIZE).map RawDoc.id))
  | _ => none

/-- A document with the suffix that its chunk ids got. -/
structure Ingestion where
  source : Nat
  doc : RawDoc
  suffix : List Nat

def Ingestion.document (a : Ingestion) : DocumentKey := ⟨a.source, a.doc.id⟩

structure PipelineWorld where
  ingest : IngestWorld := {}
  /-- the source that is being run -/
  source : Nat := 0
  /-- the ingestions that went past the duplicate check -/
  started : List Ingestion := []
  /-- the calls made, each with the document it was made for -/
  calls : List (DocumentKey × AdapterCall) := []

inductive PipelineAction where
  /-- the next source's turn, which fetches these documents -/
  | runSource (source : Nat) (docs : List RawDoc)
  /-- the next step of one of its tasks -/
  | task (index : Nat) (ts : List Nat) (answer : Answer)

section

variable (manifest : PipelineManifest) (sha : Sha256)

/-- The ingestion that a task begins, where its next step is the duplicate check and finds none. -/
def beginning (args : SourceArgs) (w : PipelineWorld) (doc : RawDoc) : Phase → Option Ingestion
  | .fetched =>
    if seenBefore args sha w.ingest doc then none
    else
      some
        { source := w.source
          doc
          suffix := versionChunkIdSuffix (indexesOf w.ingest.journal) args.label doc.id (sha.hex doc.content)
            args.onDuplicate }
  | _ => none

def pipelineStep (w : PipelineWorld) : PipelineAction → Option PipelineWorld
  | .runSource source docs =>
    if w.ingest.idle ∧ source < manifest.sources.length then
      some { w with source, ingest := { w.ingest with tasks := docs.map fun doc => (doc, .fetched) } }
    else none
  | .task index ts answer =>
    match manifest.sources[w.source]?, w.ingest.tasks[index]? with
    | some kind, some (doc, phase) =>
      let args := manifest.args w.source kind
      match processDoc args sha w.ingest ts doc answer phase with
      | none => none
      | some (next, after) =>
        some
          { w with
            ingest := { next with tasks := w.ingest.tasks.set index (doc, after) }
            started := w.started ++ (beginning sha args w doc phase).toList
            calls := w.calls ++ ((adapterCall args w.ingest doc phase).map (Prod.mk ⟨w.source, doc.id⟩)).toList }
    | _, _ => none

end

section

variable (transforms : List ChunkSpec)

def Ingestion.ids (a : Ingestion) : List (List Nat) :=
  (applyChunkIdSuffix (applyTransforms a.doc transforms) a.doc.id a.suffix).map RawDoc.id

/-- What the chunk ids of an ingestion begin with. -/
def Ingestion.root (a : Ingestion) : List Nat := a.doc.id ++ a.suffix

/-- The markers that the transforms put behind a document's id. -/
def chunkMarks (doc : RawDoc) : List (List Nat) :=
  (applyTransforms doc transforms).map fun c => c.id.drop doc.id.length

/-- The transforms leave nothing of the document, or there are none. -/
def KeptWhole (doc : RawDoc) : Prop := applyTransforms doc transforms = [doc]

instance (doc : RawDoc) : Decidable (KeptWhole transforms doc) :=
  inferInstanceAs (Decidable (applyTransforms doc transforms = [doc]))

/-- Two ingestions do not meet: where their roots are equal the markers differ, and the id of a document kept
whole is not the other's root with a marker. -/
structure Apart (a b : Ingestion) : Prop where
  roots : a.root = b.root → ∀ mark ∈ chunkMarks transforms a.doc, mark ∉ chunkMarks transforms b.doc
  left : KeptWhole transforms a.doc → ∀ mark ∈ chunkMarks transforms b.doc, a.root ≠ b.root ++ mark
  right : KeptWhole transforms b.doc → ∀ mark ∈ chunkMarks transforms a.doc, b.root ≠ a.root ++ mark

instance (a b : Ingestion) : Decidable (Apart transforms a b) :=
  decidable_of_iff
    ((a.root = b.root → ∀ mark ∈ chunkMarks transforms a.doc, mark ∉ chunkMarks transforms b.doc) ∧
      (KeptWhole transforms a.doc → ∀ mark ∈ chunkMarks transforms b.doc, a.root ≠ b.root ++ mark) ∧
      (KeptWhole transforms b.doc → ∀ mark ∈ chunkMarks transforms a.doc, b.root ≠ a.root ++ mark))
    ⟨fun h => ⟨h.1, h.2.1, h.2.2⟩, fun h => ⟨h.roots, h.left, h.right⟩⟩

variable {transforms}

theorem docId_initial {doc c : RawDoc} (hc : c ∈ applyTransforms doc transforms) : doc.id <+: c.id := by
  rcases applyTransforms_ids doc transforms with hwhole | hmarked
  · rw [hwhole, mem_singleton] at hc
    rw [hc]
  · exact (hmarked c hc).initial

theorem injectIdSuffix_eq {chunkId docId suffix : List Nat} (h : docId <+: chunkId) :
    injectIdSuffix chunkId docId suffix = docId ++ suffix ++ chunkId.drop docId.length := by
  unfold injectIdSuffix
  split
  · rename_i heq
    simp [heq]
  · rfl

theorem Ingestion.ids_eq (a : Ingestion) :
    a.ids transforms = (chunkMarks transforms a.doc).map fun mark => a.root ++ mark := by
  unfold Ingestion.ids applyChunkIdSuffix chunkMarks Ingestion.root
  split
  · rename_i hsuffix
    rw [map_map]
    apply map_congr_left
    intro c hc
    obtain ⟨mark, hmark⟩ := docId_initial hc
    simp [hsuffix, ← hmark]
  rw [map_map, map_map]
  apply map_congr_left
  intro c hc
  exact injectIdSuffix_eq (docId_initial hc)

theorem KeptWhole.marks {doc : RawDoc} (h : KeptWhole transforms doc) : chunkMarks transforms doc = [[]] := by
  simp [chunkMarks, show applyTransforms doc transforms = [doc] from h]

theorem Ingestion.marked {a : Ingestion} (h : ¬ KeptWhole transforms a.doc) {mark : List Nat}
    (hmark : mark ∈ chunkMarks transforms a.doc) : Marked a.root transforms.length (a.root ++ mark) := by
  rcases applyTransforms_ids a.doc transforms with hwhole | hmarked
  · exact absurd hwhole h
  · obtain ⟨c, hc, rfl⟩ := mem_map.mp hmark
    exact (hmarked c hc).reroot a.root

theorem disjoint_ids_iff (a b : Ingestion) :
    List.Disjoint (a.ids transforms) (b.ids transforms) ↔ Apart transforms a b := by
  rw [a.ids_eq, b.ids_eq]
  constructor
  · intro hdisjoint
    have hne : ∀ mark ∈ chunkMarks transforms a.doc, ∀ other ∈ chunkMarks transforms b.doc,
        a.root ++ mark ≠ b.root ++ other := by
      intro mark hmark other hother heq
      exact hdisjoint (mem_map.mpr ⟨mark, hmark, rfl⟩) (mem_map.mpr ⟨other, hother, heq.symm⟩)
    constructor
    · intro hroot mark hmark hother
      exact hne mark hmark mark hother (by rw [hroot])
    · intro hwhole mark hmark heq
      exact hne [] (by simp [hwhole.marks]) mark hmark (by rw [← heq, append_nil])
    · intro hwhole mark hmark heq
      exact hne mark hmark [] (by simp [hwhole.marks]) (by rw [← heq, append_nil])
  intro hapart id ha hb
  obtain ⟨mark, hmark, rfl⟩ := mem_map.mp ha
  obtain ⟨other, hother, heq⟩ := mem_map.mp hb
  by_cases hwhole : KeptWhole transforms a.doc
  · rw [hwhole.marks, mem_singleton] at hmark
    rw [hmark, append_nil] at heq
    exact hapart.left hwhole other hother heq.symm
  by_cases hwhole' : KeptWhole transforms b.doc
  · rw [hwhole'.marks, mem_singleton] at hother
    rw [hother, append_nil] at heq
    exact hapart.right hwhole' mark hmark heq
  -- both carry the same number of markers, so the roots can be read off the ids
  have hb := Ingestion.marked hwhole' hother
  rw [heq] at hb
  have hroot := (Ingestion.marked hwhole hmark).root_unique hb
  rw [hroot] at heq
  rw [append_cancel_left heq] at hother
  exact hapart.roots hroot mark hmark hother

end

section

variable (manifest : PipelineManifest) (sha : Sha256)

def AdapterCall.Touches : AdapterCall → List Nat → Prop
  | .store ids, k => k ∈ ids
  | .delete ids, k => listed ids k = true

/-- No id is stored or deleted for two documents. -/
def Isolated (w : PipelineWorld) : Prop :=
  ∀ a ∈ w.calls, ∀ b ∈ w.calls, ∀ k, a.2.Touches k → b.2.Touches k → a.1 = b.1

def BeginsApart (w : PipelineWorld) : PipelineAction → Prop
  | .runSource .. => True
  | .task index .. =>
    ∀ kind ∈ manifest.sources[w.source]?, ∀ task ∈ w.ingest.tasks[index]?,
      ∀ a ∈ beginning sha (manifest.args w.source kind) w task.1 task.2,
        ∀ b ∈ w.started, b.document ≠ a.document → Apart manifest.transforms a b

instance (w : PipelineWorld) : (action : PipelineAction) → Decidable (BeginsApart manifest sha w action)
  | .runSource .. => inferInstanceAs (Decidable True)
  | .task index .. =>
    inferInstanceAs (Decidable (∀ kind ∈ manifest.sources[w.source]?, ∀ task ∈ w.ingest.tasks[index]?,
      ∀ a ∈ beginning sha (manifest.args w.source kind) w task.1 task.2,
        ∀ b ∈ w.started, b.document ≠ a.document → Apart manifest.transforms a b))

/-- The id is one of those that an ingestion of the document stores. -/
def Belongs (started : List Ingestion) (document : DocumentKey) (k : List Nat) : Prop :=
  ∃ a ∈ started, a.document = document ∧ k ∈ a.ids manifest.transforms

/-- The ids that a task is on the way to storing or recording. -/
def Phase.pending : Phase → List (List Nat)
  | .replacing chunks => chunks.map RawDoc.id
  | .storing chunks _ rest => chunks.map RawDoc.id ++ rest.map RawDoc.id
  | _ => []

structure Accounted (w : PipelineWorld) : Prop where
  apart : ∀ a ∈ w.started, ∀ b ∈ w.started, a.document ≠ b.document →
    List.Disjoint (a.ids manifest.transforms) (b.ids manifest.transforms)
  calls : ∀ call ∈ w.calls, ∀ k, call.2.Touches k → Belongs manifest w.started call.1 k
  tasks : ∀ task ∈ w.ingest.tasks, ∀ k ∈ task.2.pending, Belongs manifest w.started ⟨w.source, task.1.id⟩ k
  journal : ∀ entry, .docIngested entry ∈ w.ingest.journal → ∃ source kind, manifest.sources[source]? = some kind ∧
    entry.source = sourceLabel manifest.name source kind ∧
    ∀ k ∈ entry.chunkIds.getD [], Belongs manifest w.started ⟨source, entry.docId⟩ k

variable {manifest} {sha}

variable {k : List Nat}

theorem Belongs.mono {started more : List Ingestion} {document : DocumentKey}
    (h : Belongs manifest started document k) : Belongs manifest (started ++ more) document k := by
  obtain ⟨a, ha, hk⟩ := h
  exact ⟨a, mem_append_left _ ha, hk⟩

theorem Accounted.isolated {w : PipelineWorld} (h : Accounted manifest w) : Isolated w := by
  intro a ha b hb k hak hbk
  obtain ⟨x, hx, hxa, hxk⟩ := h.calls a ha k hak
  obtain ⟨y, hy, hyb, hyk⟩ := h.calls b hb k hbk
  by_contra hne
  rw [← hxa, ← hyb] at hne
  exact h.apart x hx y hy hne hxk hyk

section

theorem colon_not_mem_decimalText (i : Nat) : 0x3A ∉ decimalText i := by
  simp only [decimalText, digitText, mem_map, not_exists, not_and]
  intro d _
  omega

theorem docKey_inj {i j : Nat} {kind kind' : SourceKind} {id id' : List Nat}
    (hi : manifest.sources[i]? = some kind) (hj : manifest.sources[j]? = some kind')
    (h : docKey (sourceLabel manifest.name i kind) id = docKey (sourceLabel manifest.name j kind') id') :
    (⟨i, id⟩ : DocumentKey) = ⟨j, id'⟩ := by
  simp only [docKey, sourceLabel, append_assoc, cons_append, append_cancel_left_eq,
    List.cons.injEq, true_and] at h
  -- the index is what stands before the next colon
  obtain ⟨hindex, hrest⟩ :=
    cons_append_inj_of_not_mem (colon_not_mem_decimalText i) (colon_not_mem_decimalText j) h
  obtain rfl := decimalText_inj hindex
  rw [hi] at hj
  obtain rfl := Option.some.inj hj
  rw [(List.cons.inj (append_cancel_left hrest)).2]

end

variable {args : SourceArgs} {w next : IngestWorld} {doc : RawDoc} {ts : List Nat} {answer : Answer}

variable {world : PipelineWorld}

theorem listed_prior (h : Accounted manifest world) {source : Nat} {kind : SourceKind}
    (hsource : manifest.sources[source]? = some kind)
    (hk : listed (priorChunkIds (manifest.args source kind) world.ingest doc) k = true) :
    Belongs manifest world.started ⟨source, doc.id⟩ k := by
  obtain ⟨item, hitem, hmatch⟩ := any_eq_true.mp hk
  obtain ⟨prior, hprior, hmem⟩ := mem_flatMap.mp hitem
  obtain ⟨entry, hentry, hkey, rfl⟩ := mem_prior_entries.mp hprior
  obtain ⟨i, kind', hi, hlabel, hids⟩ := h.journal entry hentry
  obtain ⟨id, hid, rfl⟩ := mem_map.mp hmem
  simp only [decide_eq_true_eq] at hmatch
  rw [hlabel] at hkey
  rw [docKey_inj hsource hi hkey, ← hmatch]
  exact hids id hid

/-- What a step of a task does: the journal gets the task's own ingestion at most, the chunks in the making are
those of the ingestion, and only ids of the call change in the collection. -/
structure TaskStep (sha : Sha256) (args : SourceArgs) (w : PipelineWorld) (doc : RawDoc) (phase : Phase) (next : IngestWorld)
    (after : Phase) : Prop where
  journal : ∀ entry, .docIngested entry ∈ next.journal → .docIngested entry ∈ w.ingest.journal ∨
    entry.source = args.label ∧ entry.docId = doc.id ∧ ∀ k ∈ entry.chunkIds.getD [], k ∈ phase.pending
  pending : ∀ k ∈ after.pending, k ∈ phase.pending ∨
    ∃ a ∈ beginning sha args w doc phase, k ∈ a.ids args.transforms
  store : ∀ k, next.store.get? k ≠ w.ingest.store.get? k →
    ∃ call ∈ adapterCall args w.ingest doc phase, call.Touches k

variable {after : Phase}

theorem TaskStep.fetched (hstep : processDoc args sha world.ingest ts doc answer .fetched = some (next, after)) :
    TaskStep sha args world doc .fetched next after := by
  rw [processDoc] at hstep
  split at hstep
  · cases hstep
    refine ⟨?_, by simp [Phase.pending], fun k hk => absurd rfl hk⟩
    intro entry hentry
    exact .inl (by simpa using hentry)
  rename_i hseen
  cases hstep
  refine ⟨fun entry hentry => .inl hentry, ?_, fun k hk => absurd rfl hk⟩
  intro k hk
  refine .inr ⟨⟨world.source, doc, _⟩, ?_, hk⟩
  rw [beginning, if_neg hseen]
  rfl

theorem TaskStep.replacing {chunks : List RawDoc}
    (hstep : processDoc args sha world.ingest ts doc answer (.replacing chunks) = some (next, after)) :
    TaskStep sha args world doc (.replacing chunks) next after := by
  rw [processDoc] at hstep
  by_cases hmode : args.onDuplicate = .replace
  · rw [if_pos hmode] at hstep
    obtain ⟨hdelete, -, herror⟩ := replacePriorChunks_spec args world.ingest ts doc answer
    generalize replacePriorChunks args world.ingest ts doc answer = deleted at *
    cases hstep
    refine ⟨?_, ?_, ?_⟩
    · intro entry hentry
      rcases mem_append.mp hentry with hold | hnew
      · exact .inl hold
      · obtain ⟨message, herr⟩ := herror _ (Option.mem_toList.mp hnew)
        cases herr
    · intro k hk
      rcases mem_append.mp hk with hk | hk
      · exact .inl hk
      · exact .inl hk
    intro k hk
    rcases hdelete k with hsame | ⟨hlisted, -⟩
    · exact absurd hsame hk
    have hprior : priorChunkIds args world.ingest doc ≠ [] := by
      intro hnil
      rw [hnil] at hlisted
      cases hlisted
    refine ⟨.delete (priorChunkIds args world.ingest doc), ?_, hlisted⟩
    rw [adapterCall, if_pos ⟨hmode, hprior⟩]
    rfl
  rw [if_neg hmode] at hstep
  cases hstep
  refine ⟨?_, ?_, fun k hk => absurd rfl hk⟩
  · intro entry hentry
    exact .inl (by simpa using hentry)
  intro k hk
  rcases mem_append.mp hk with hk | hk
  · exact .inl hk
  · exact .inl hk

theorem mem_of_mem_take_batch {rest : List RawDoc}
    (hk : k ∈ (rest.take BATCH_SIZE).map RawDoc.id) : k ∈ rest.map RawDoc.id := by
  obtain ⟨c, hc, rfl⟩ := mem_map.mp hk
  exact mem_map.mpr ⟨c, mem_of_mem_take hc, rfl⟩

theorem TaskStep.storing {chunks rest : List RawDoc} {errored : Bool}
    (hstep : processDoc args sha world.ingest ts doc answer (.storing chunks errored rest) = some (next, after)) :
    TaskStep sha args world doc (.storing chunks errored rest) next after := by
  cases rest with
  | nil =>
    rw [processDoc] at hstep
    split at hstep
    · cases hstep
      exact ⟨fun entry hentry => .inl hentry, by simp [Phase.pending], fun k hk => absurd rfl hk⟩
    cases hstep
    refine ⟨?_, by simp [Phase.pending], fun k hk => absurd rfl hk⟩
    intro entry hentry
    rcases mem_append.mp hentry with hold | hnew
    · exact .inl hold
    · obtain rfl := JournalEntry.docIngested.inj (mem_singleton.mp hnew)
      exact .inr ⟨rfl, rfl, fun k hk => mem_append_left _ hk⟩
  | cons c rest =>
    cases answer with
    | ok =>
      rw [processDoc] at hstep
      cases hstep
      refine ⟨fun entry hentry => .inl hentry, ?_, ?_⟩
      · intro k hk
        rcases mem_append.mp hk with hk | hk
        · exact .inl (mem_append_left _ hk)
        · obtain ⟨d, hd, rfl⟩ := mem_map.mp hk
          exact .inl (mem_append_right _ (mem_map.mpr ⟨d, mem_of_mem_drop hd, rfl⟩))
      intro k hk
      rcases get?_upsert_cases doc world.ingest.store ((c :: rest).take BATCH_SIZE) k with hsame | ⟨hmem, -⟩
      · exact absurd hsame hk
      · exact ⟨.store _, rfl, hmem⟩
    | failed message done =>
      rw [processDoc] at hstep
      cases hstep
      refine ⟨?_, by simp [Phase.pending], ?_⟩
      · intro entry hentry
        rcases mem_append.mp hentry with hold | hnew
        · exact .inl hold
        · cases mem_singleton.mp hnew
      intro k hk
      rcases get?_upsert_cases doc world.ingest.store
        (((c :: rest).take BATCH_SIZE).filter fun c => c.id ∈ done) k with hsame | ⟨hmem, -⟩
      · exact absurd hsame hk
      · obtain ⟨d, hd, rfl⟩ := mem_map.mp hmem
        exact ⟨.store _, rfl, mem_map.mpr ⟨d, mem_of_mem_filter hd, rfl⟩⟩

variable {phase : Phase}

theorem processDoc_taskStep (hstep : processDoc args sha world.ingest ts doc answer phase = some (next, after)) :
    TaskStep sha args world doc phase next after := by
  cases phase with
  | fetched => exact .fetched hstep
  | replacing chunks => exact .replacing hstep
  | storing chunks errored rest => exact .storing hstep
  | finished skipped errored => cases hstep

/-- The state after a step of a task. -/
def PipelineWorld.afterTask (sha : Sha256) (args : SourceArgs) (w : PipelineWorld) (index : Nat) (doc : RawDoc)
    (phase : Phase) (next : IngestWorld) (after : Phase) : PipelineWorld :=
  { w with
    ingest := { next with tasks := w.ingest.tasks.set index (doc, after) }
    started := w.started ++ (beginning sha args w doc phase).toList
    calls := w.calls ++ ((adapterCall args w.ingest doc phase).map (Prod.mk ⟨w.source, doc.id⟩)).toList }

variable {action : PipelineAction}

theorem pipelineStep_cases {w next : PipelineWorld} (hstep : pipelineStep manifest sha w action = some next) :
    (∃ source docs, action = .runSource source docs ∧
      next = { w with source, ingest := { w.ingest with tasks := docs.map fun doc => (doc, .fetched) } }) ∨
    ∃ index ts answer kind doc phase ingest after, action = .task index ts answer ∧
      manifest.sources[w.source]? = some kind ∧ w.ingest.tasks[index]? = some (doc, phase) ∧
      processDoc (manifest.args w.source kind) sha w.ingest ts doc answer phase = some (ingest, after) ∧
      next = w.afterTask sha (manifest.args w.source kind) index doc phase ingest after := by
  cases action with
  | runSource source docs =>
    simp only [pipelineStep] at hstep
    split at hstep
    · exact .inl ⟨source, docs, rfl, (Option.some.inj hstep).symm⟩
    · cases hstep
  | task index ts answer =>
    simp only [pipelineStep] at hstep
    split at hstep
    · rename_i kind doc phase hkind htask
      split at hstep
      · cases hstep
      rename_i ingest after hprocess
      exact .inr ⟨index, ts, answer, kind, doc, phase, ingest, after, rfl, hkind, htask, hprocess,
        (Option.some.inj hstep).symm⟩
    · cases hstep

theorem beginning_document {a : Ingestion}
    (ha : a ∈ beginning sha args world doc phase) : a.document = ⟨world.source, doc.id⟩ := by
  cases phase with
  | fetched =>
    rw [beginning] at ha
    split at ha
    · cases ha
    · cases ha
      rfl
  | _ => cases ha

theorem adapterCall_touches {call : AdapterCall} (hcall : call ∈ adapterCall args w doc phase) (hk : call.Touches k) :
    k ∈ phase.pending ∨ listed (priorChunkIds args w doc) k = true := by
  cases phase with
  | fetched => cases hcall
  | finished => cases hcall
  | replacing chunks =>
    rw [adapterCall] at hcall
    split at hcall
    · cases hcall
      exact .inr hk
    · cases hcall
  | storing chunks errored rest =>
    cases rest with
    | nil => cases hcall
    | cons c rest =>
      cases hcall
      exact .inl (mem_append_right _ (mem_of_mem_take_batch hk))

theorem Accounted.task (h : Accounted manifest world) {index : Nat} {kind : SourceKind} (hkind : manifest.sources[world.source]? = some kind)
    (htask : world.ingest.tasks[index]? = some (doc, phase))
    (hapart : ∀ a ∈ beginning sha (manifest.args world.source kind) world doc phase,
      ∀ b ∈ world.started, b.document ≠ a.document → Apart manifest.transforms a b)
    (hstep : TaskStep sha (manifest.args world.source kind) world doc phase next after) :
    Accounted manifest (world.afterTask sha (manifest.args world.source kind) index doc phase next after) := by
  have hmem : (doc, phase) ∈ world.ingest.tasks := mem_of_getElem? htask
  constructor
  · intro a ha b hb hne
    rcases mem_append.mp ha with ha | ha <;> rcases mem_append.mp hb with hb | hb
    · exact h.apart a ha b hb hne
    · have hnew := hapart b (Option.mem_toList.mp hb) a ha hne
      exact ((disjoint_ids_iff b a).mpr hnew).symm
    · exact (disjoint_ids_iff a b).mpr (hapart a (Option.mem_toList.mp ha) b hb hne.symm)
    · rw [beginning_document (Option.mem_toList.mp ha), beginning_document (Option.mem_toList.mp hb)] at hne
      exact absurd rfl hne
  · intro call hcall k hk
    rcases mem_append.mp hcall with hcall | hcall
    · exact (h.calls call hcall k hk).mono
    obtain ⟨made, hmade, rfl⟩ := Option.mem_map.mp (Option.mem_toList.mp hcall)
    rcases adapterCall_touches hmade hk with hpending | hlisted
    · exact (h.tasks _ hmem k hpending).mono
    · exact (listed_prior h hkind hlisted).mono
  · intro task hin k hk
    rcases mem_or_eq_of_mem_set hin with hold | rfl
    · exact (h.tasks task hold k hk).mono
    rcases hstep.pending k hk with hpending | ⟨a, ha, hids⟩
    · exact (h.tasks _ hmem k hpending).mono
    · have hdocument := beginning_document ha
      exact ⟨a, mem_append_right _ (Option.mem_toList.mpr ha), hdocument, hids⟩
  intro entry hentry
  rcases hstep.journal entry hentry with hold | ⟨hlabel, hid, hids⟩
  · obtain ⟨source, kind', hsource, hlabel, hids⟩ := h.journal entry hold
    exact ⟨source, kind', hsource, hlabel, fun k hk => (hids k hk).mono⟩
  refine ⟨world.source, kind, hkind, hlabel, ?_⟩
  intro k hk
  rw [hid]
  exact (h.tasks _ hmem k (hids k hk)).mono

theorem Accounted.step {w next : PipelineWorld} (h : Accounted manifest w)
    (hapart : BeginsApart manifest sha w action) (hstep : pipelineStep manifest sha w action = some next) :
    Accounted manifest next := by
  obtain ⟨source, docs, rfl, rfl⟩ | ⟨index, ts, answer, kind, doc, phase, ingest, after, rfl, hkind, htask, hprocess,
    rfl⟩ := pipelineStep_cases hstep
  · refine ⟨h.apart, h.calls, ?_, h.journal⟩
    intro task htask k hk
    obtain ⟨doc, -, rfl⟩ := mem_map.mp htask
    cases hk
  · exact h.task hkind htask (hapart kind hkind _ htask) (processDoc_taskStep hprocess)

def PipelineWorld.actor (w : PipelineWorld) : PipelineAction → Option DocumentKey
  | .runSource .. => none
  | .task index .. => (w.ingest.tasks[index]?).map fun task => ⟨w.source, task.1.id⟩

theorem pipelineStep_store {w next : PipelineWorld} (hstep : pipelineStep manifest sha w action = some next)
    (hk : next.ingest.store.get? k ≠ w.ingest.store.get? k) :
    ∃ document ∈ w.actor action, ∃ call, next.calls = w.calls ++ [(document, call)] ∧ call.Touches k := by
  obtain ⟨source, docs, rfl, rfl⟩ | ⟨index, ts, answer, kind, doc, phase, ingest, after, rfl, hkind, htask, hprocess,
    rfl⟩ := pipelineStep_cases hstep
  · exact absurd rfl hk
  obtain ⟨call, hcall, htouch⟩ := (processDoc_taskStep hprocess).store k hk
  refine ⟨⟨w.source, doc.id⟩, by simp [PipelineWorld.actor, htask], call, ?_, htouch⟩
  rw [PipelineWorld.afterTask, Option.mem_def.mp hcall]
  rfl

end

/-- While every ingestion that begins is apart from those of other documents, no id is stored or deleted for two
documents, and no step changes what another document's calls touched. -/
theorem documents_isolated (manifest : PipelineManifest) (sha : Sha256) (actions : List PipelineAction)
    (w : PipelineWorld) (halong : Along (pipelineStep manifest sha) (BeginsApart manifest sha) {} actions)
    (hrun : run (pipelineStep manifest sha) {} actions = some w) :
    Isolated w ∧ ∀ action next, BeginsApart manifest sha w action → pipelineStep manifest sha w action = some next →
      ∀ k, next.ingest.store.get? k ≠ w.ingest.store.get? k →
        ∀ call ∈ w.calls, call.2.Touches k → w.actor action = some call.1 := by
  have hinit : Accounted manifest {} := ⟨nofun, nofun, nofun, nofun⟩
  have h : Accounted manifest w := run_invariant (fun _ _ _ h hapart hstep => h.step hapart hstep) hinit halong hrun
  refine ⟨h.isolated, ?_⟩
  intro action next hapart hstep k hk call hcall htouch
  obtain ⟨document, hactor, made, hcalls, hmade⟩ := pipelineStep_store hstep hk
  have hisolated := (h.step hapart hstep).isolated
  rw [Isolated, hcalls] at hisolated
  have heq := hisolated (document, made) (by simp) call (mem_append_left _ hcall) k hmade htouch
  rw [← heq]
  exact hactor

section

def sampleFile (dir name content : String) : ScannedFile := ⟨[units "srv", units dir, units name], some (units content)⟩

/-- Two sources of files, each with one document. -/
def twoSources (name other : String) : List PipelineAction :=
  let steps := List.replicate 4 (.task 0 (units "2026-01-01T00:00:00.000Z") .ok)
  .runSource 0 (filesystemFetcher [units "srv", units "a"] [sampleFile "a" name "A"]) :: steps ++
    .runSource 1 (filesystemFetcher [units "srv", units "b"] [sampleFile "b" other "B"]) :: steps

def sampleManifest : PipelineManifest := ⟨units "docs", [.filesystem, .filesystem], [⟨200, 0, true⟩], .replace⟩

theorem documents_isolated_two_files :
    (run (pipelineStep sampleManifest sampleSha) {} (twoSources "INSTALL.md" "README.md")).isSome = true ∧
      ∀ w, run (pipelineStep sampleManifest sampleSha) {} (twoSources "INSTALL.md" "README.md") = some w → Isolated w := by
  refine ⟨by decide +kernel, ?_⟩
  intro w hrun
  exact (documents_isolated sampleManifest sampleSha _ w (by decide +kernel) hrun).1

/-- Both sources have a `README.md`: the second overwrites the chunk of the first. -/
theorem same_name_overwritten :
    ∃ w, run (pipelineStep sampleManifest sampleSha) {} (twoSources "README.md" "README.md") = some w ∧
      w.ingest.store.get? (units "README.md#0") = some ⟨units "B", units "README.md", units "B"⟩ ∧ ¬ Isolated w := by
  let ids : AdapterCall → List (List Nat)
    | .store ids => ids
    | .delete _ => []
  have hend : (run (pipelineStep sampleManifest sampleSha) {} (twoSources "README.md" "README.md")).map
      (fun w => (w.ingest.store.get? (units "README.md#0"), w.calls.map fun call => (call.1, ids call.2))) =
        some (some ⟨units "B", units "README.md", units "B"⟩,
          [(⟨0, units "README.md"⟩, [units "README.md#0"]), (⟨1, units "README.md"⟩, [units "README.md#0"])]) := by
    decide +kernel
  obtain ⟨w, hrun, hw⟩ := Option.map_eq_some_iff.mp hend
  obtain ⟨hstore, hcalls⟩ := Prod.mk.inj hw
  refine ⟨w, hrun, hstore, ?_⟩
  intro hisolated
  have htouch : ∀ call : AdapterCall, units "README.md#0" ∈ ids call → call.Touches (units "README.md#0") := by
    intro call hmem
    cases call with
    | store ids => exact hmem
    | delete => cases hmem
  have hmade : ∀ source, (⟨source, units "README.md"⟩, [units "README.md#0"]) ∈
      w.calls.map (fun call => (call.1, ids call.2)) → ∃ call ∈ w.calls, call.1 = ⟨source, units "README.md"⟩ ∧
        call.2.Touches (units "README.md#0") := by
    intro source hmem
    obtain ⟨call, hcall, heq⟩ := mem_map.mp hmem
    obtain ⟨hdocument, hids⟩ := Prod.mk.inj heq
    exact ⟨call, hcall, hdocument, htouch call.2 (by rw [hids]; exact mem_singleton_self _)⟩
  obtain ⟨first, hfirst, hzero, htouches⟩ := hmade 0 (by rw [hcalls]; exact mem_cons_self)
  obtain ⟨second, hsecond, hone, htouches'⟩ := hmade 1 (by rw [hcalls]; exact mem_cons_of_mem _ mem_cons_self)
  have hsame := hisolated first hfirst second hsecond _ htouches htouches'
  rw [hzero, hone] at hsame
  cases hsame

end

end llamactl.rag
