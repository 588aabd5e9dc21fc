import Llamactl.Rag.Journal

open js List collections

namespace llamactl.rag

/-! The heading-aware markdown chunker. A document's metadata is left out: no decision reads it. -/

structure RawDoc where
  id : List Nat
  content : List Nat
  deriving DecidableEq

/-- The spec of a `markdown-chunk` transform. -/
structure ChunkSpec where
  chunkSize : Nat
  overlap : Nat
  preserveHeadings : Bool

structure Section where
  path : List (List Nat)
  body : List Nat

structure Heading where
  level : Nat
  title : List Nat

structure Chunk where
  content : List Nat
  headingPath : List (List Nat)

/-- `text.split(/\r?\n/)` -/
def splitLines (text : List Nat) : List (List Nat) :=
  let pieces := text.splitOn 0x0A
  -- the carriage return belongs to the line end that follows it
  pieces.dropLast.map (fun piece => if piece.getLast? = some 0x0D then piece.dropLast else piece) ++
    pieces.getLast?.toList

/-- `text.split(/\n{2,}/)`: `run` newlines were read since the last other unit. -/
def splitParagraphsFrom (piece : List Nat) (run : Nat) : List Nat → List (List Nat)
  | [] => if 2 ≤ run then [piece, []] else [piece ++ List.replicate run 0x0A]
  | u :: rest =>
    if u = 0x0A then splitParagraphsFrom piece (run + 1) rest
    else if 2 ≤ run then piece :: splitParagraphsFrom [u] 0 rest
    else splitParagraphsFrom (piece ++ List.replicate run 0x0A ++ [u]) 0 rest

/-- `text.trimEnd()` -/
def trimEndUnits (text : List Nat) : List Nat := (text.reverse.dropWhile isTrimmedUnit).reverse

def parseHeading (line : List Nat) : Option Heading :=
  let level := ((line.take 6).takeWhile (· = 0x23)).length
  if level = 0 then none
  else
    match (line)[level]? with
    | none => none
    | some separator =>
      if separator ≠ 0x20 ∧ separator ≠ 0x09 then none
      else
        let title := trimUnits (line.drop (level + 1))
        if title = [] then none else some { level, title }

/-- The state of the walk over the lines. -/
structure Walk where
  sections : List Section := []
  pathStack : List Heading := []
  bodyLines : List (List Nat) := []

def Walk.flush (walk : Walk) : Walk :=
  let body := trimUnits ([0x0A].intercalate walk.bodyLines)
  let path := walk.pathStack.map Heading.title
  { walk with
    sections := if body ≠ [] ∨ path ≠ [] then walk.sections ++ [{ path, body }] else walk.sections
    bodyLines := [] }

def Walk.line (walk : Walk) (line : List Nat) : Walk :=
  match parseHeading line with
  | some heading =>
    let walk := walk.flush
    -- a heading of level N closes every one at N or below
    let kept := (walk.pathStack.reverse.dropWhile (fun last => heading.level ≤ last.level)).reverse
    { walk with pathStack := kept ++ [heading] }
  | none => { walk with bodyLines := walk.bodyLines ++ [line] }

def splitByHeadings (text : List Nat) : List Section :=
  ((splitLines text).foldl Walk.line {}).flush.sections.filter fun sec => sec.body ≠ [] ∨ sec.path ≠ []

def formatHeadingPrefix (path : List (List Nat)) : List Nat :=
  (units " > ").intercalate (path.mapIdx fun i title => List.replicate (i + 1) 0x23 ++ 0x20 :: title)

/-- The next chunk begins with the tail of the previous one. -/
def nextWindowSeed (current paragraph : List Nat) (overlap : Nat) : List Nat :=
  let tail := if 0 < overlap ∧ overlap < current.length then current.drop (current.length - overlap) else []
  if tail ≠ [] then tail ++ 0x0A :: 0x0A :: paragraph else paragraph

/-- The loop over the paragraphs of a section, with the chunk in the making. -/
def packParagraphs (sec : Section) (lead : List Nat) (budget overlap : Nat) (current : List Nat) :
    List (List Nat) → List Chunk
  | [] => if current ≠ [] then [{ content := lead ++ current, headingPath := sec.path }] else []
  | paragraph :: rest =>
    let candidate := if current = [] then paragraph else current ++ 0x0A :: 0x0A :: paragraph
    if candidate.length ≤ budget ∨ current = [] then packParagraphs sec lead budget overlap candidate rest
    else
      { content := lead ++ current, headingPath := sec.path } ::
        packParagraphs sec lead budget overlap (nextWindowSeed current paragraph overlap) rest

def packSection (sec : Section) (lead : List Nat) (budget overlap : Nat) : List Chunk :=
  let paragraphs := ((splitParagraphsFrom [] 0 sec.body).map trimUnits).filter (· ≠ [])
  if paragraphs = [] then
    if lead ≠ [] then [{ content := trimEndUnits lead, headingPath := sec.path }] else []
  else packParagraphs sec lead budget overlap [] paragraphs

def chunkMarkdown (doc : RawDoc) (spec : ChunkSpec) : List Chunk :=
  (splitByHeadings doc.content).flatMap fun sec =>
    let lead :=
      if spec.preserveHeadings ∧ sec.path ≠ [] then formatHeadingPrefix sec.path ++ [0x0A, 0x0A] else []
    packSection sec lead (max 1 (spec.chunkSize - lead.length)) spec.overlap

/-- `String(i)` -/
def decimalText (i : Nat) : List Nat := digitText (natDigits i)

def chunkId (docId : List Nat) (i : Nat) : List Nat := docId ++ 0x23 :: decimalText i

def markdownChunkTransform (spec : ChunkSpec) (docs : List RawDoc) : List RawDoc :=
  docs.flatMap fun doc =>
    (chunkMarkdown doc spec).mapIdx fun i chunk => { id := chunkId doc.id i, content := chunk.content }

/-- The transforms in declared order; a document that they leave nothing of is kept whole. -/
def applyTransforms (rawDoc : RawDoc) (transforms : List ChunkSpec) : List RawDoc :=
  let out := transforms.foldl (fun docs spec => markdownChunkTransform spec docs) [rawDoc]
  if out = [] then [rawDoc] else out

/-! The ingestion runtime: one source of a pipeline, its documents processed by concurrent tasks. A run is
a wet one and its adapter has both bindings. -/

def BATCH_SIZE : Nat := 20

inductive OnDuplicate where
  | skip
  | replace
  | version
  deriving DecidableEq

inductive SourceKind where
  | filesystem
  | http
  | git
  deriving DecidableEq

def SourceKind.text : SourceKind → String
  | .filesystem => "filesystem"
  | .http => "http"
  | .git => "git"

def sourceLabel (pipeline : List Nat) (index : Nat) (kind : SourceKind) : List Nat :=
  pipeline ++ 0x3A :: decimalText index ++ 0x3A :: units kind.text

/-- `createHash("sha256").update(content).digest("hex")`, and the length of every such digest. -/
structure Sha256 where
  hex : List Nat → List Nat
  length : ∀ content, (hex content).length = 64

def indexesOf (journal : List JournalEntry) : JournalIndexes := journal.foldl JournalIndexes.append {}

def versionChunkIdSuffix (indexes : JournalIndexes) (label docId sha : List Nat) (onDuplicate : OnDuplicate) :
    List Nat :=
  if onDuplicate ≠ .version then []
  else if (indexes.priorIngestions label docId).length > 0 then 0x40 :: sha.take 12 else []

def injectIdSuffix (chunkId docId suffix : List Nat) : List Nat :=
  if chunkId = docId then docId ++ suffix
  else if docId <+: chunkId then docId ++ suffix ++ chunkId.drop docId.length
  else chunkId ++ suffix

def applyChunkIdSuffix (chunks : List RawDoc) (docId suffix : List Nat) : List RawDoc :=
  if suffix = [] then chunks
  else chunks.map fun c => { c with id := injectIdSuffix c.id docId suffix }

/-- The ids of every prior ingestion of the document; the request holds each of them once. -/
def collectPriorChunkIds (indexes : JournalIndexes) (source docId : List Nat) : List Json :=
  (indexes.priorIngestions source docId).flatMap PriorIngestion.chunkIds

/-- The part of a manifest that the tasks of one source read. -/
structure SourceArgs where
  label : List Nat
  transforms : List ChunkSpec
  onDuplicate : OnDuplicate

/-- A chunk in the collection, with the document and the content it was stored for. -/
structure Stored where
  content : List Nat
  docId : List Nat
  version : List Nat
  deriving DecidableEq

abbrev Collection := OrderedMap (List Nat) Stored

/-- The id is one of those in a delete request. -/
def listed (ids : List Json) (id : List Nat) : Bool :=
  ids.any fun
    | .str text => text = id
    | _ => false

/-- `adapter.delete` removes the ids it is given. -/
def deleteIds (remove : List Nat → Bool) (store : Collection) : Collection :=
  (store.keys.filter remove).foldl OrderedMap.erase store

/-- `adapter.store` upserts by id. -/
def upsert (doc : RawDoc) (store : Collection) (chunks : List RawDoc) : Collection :=
  chunks.foldl (fun store c => store.set c.id ⟨c.content, doc.id, doc.content⟩) store

/-- Where the task of one document stands. -/
inductive Phase where
  | fetched
  | replacing (chunks : List RawDoc)
  | storing (chunks : List RawDoc) (errored : Bool) (rest : List RawDoc)
  | finished (skipped errored : Bool)
  deriving DecidableEq

/-- How the adapter answers the task's next call. A call that fails may have had a part of its effect. -/
inductive Answer where
  | ok
  | failed (message : List Nat) (done : List (List Nat))

/-- A document that a task went on to store, and whether all of it was stored and recorded. -/
structure Attempt where
  doc : RawDoc
  complete : Bool
  deriving DecidableEq

structure IngestWorld where
  store : Collection := OrderedMap.empty
  journal : List JournalEntry := []
  tasks : List (RawDoc × Phase) := []
  attempts : List Attempt := []

variable (args : SourceArgs) (sha : Sha256)

def storedChunks (w : IngestWorld) (doc : RawDoc) : List RawDoc :=
  applyChunkIdSuffix (applyTransforms doc args.transforms) doc.id
    (versionChunkIdSuffix (indexesOf w.journal) args.label doc.id (sha.hex doc.content) args.onDuplicate)

/-- `journal.seen` of the document as it was fetched. -/
def seenBefore (w : IngestWorld) (doc : RawDoc) : Bool :=
  (indexesOf w.journal).seen? args.label doc.id (sha.hex doc.content)

def priorChunkIds (w : IngestWorld) (doc : RawDoc) : List Json :=
  collectPriorChunkIds (indexesOf w.journal) args.label doc.id

def ingestedEntry (ts : List Nat) (doc : RawDoc) (chunks : List RawDoc) : JournalEntry :=
  .docIngested
    { ts
      source := args.label
      docId := doc.id
      sha := sha.hex doc.content
      chunks := chunks.length
      chunkIds := some (chunks.map RawDoc.id) }

def errorEntry (ts : List Nat) (doc : RawDoc) (what : String) (detail message : List Nat) : JournalEntry :=
  .error ts (some args.label) (some doc.id) (units what ++ doc.id ++ detail ++ units ": " ++ message)

/-- The deletion that `replace` makes first: the collection, and the entry of a call that failed. -/
def replacePriorChunks (w : IngestWorld) (ts : List Nat) (doc : RawDoc) (answer : Answer) :
    Collection × Option JournalEntry :=
  let priorIds := priorChunkIds args w doc
  if priorIds = [] then (w.store, none)
  else
    match answer with
    | .ok => (deleteIds (listed priorIds) w.store, none)
    | .failed message done =>
      (deleteIds (fun id => listed priorIds id && decide (id ∈ done)) w.store,
        some (errorEntry args ts doc "replace-delete failed for " [] message))

/-- One step of a document's task, at the clock text `ts`. -/
def processDoc (w : IngestWorld) (ts : List Nat) (doc : RawDoc) (answer : Answer) :
    Phase → Option (IngestWorld × Phase)
  | .fetched =>
    if seenBefore args sha w doc then
      some ({ w with journal := w.journal ++ [.docSkipped ts args.label doc.id] }, .finished true false)
    else some (w, .replacing (storedChunks args sha w doc))
  | .replacing chunks =>
    let (store, error) :=
      if args.onDuplicate = .replace then replacePriorChunks args w ts doc answer else (w.store, none)
    some
      ({ w with
         store
         journal := w.journal ++ error.toList
         attempts := w.attempts ++ [⟨doc, false⟩] },
        .storing chunks error.isSome chunks)
  | .storing chunks errored [] =>
    if errored then some (w, .finished false true)
    else
      some
        ({ w with
           journal := w.journal ++ [ingestedEntry args sha ts doc chunks]
           attempts := w.attempts ++ [⟨doc, true⟩] },
          .finished false false)
  | .storing chunks errored (c :: rest) =>
    let batch := (c :: rest).take BATCH_SIZE
    match answer with
    | .ok =>
      some ({ w with store := upsert doc w.store batch }, .storing chunks errored ((c :: rest).drop BATCH_SIZE))
    | .failed message done =>
      let offset := chunks.length - (c :: rest).length
      some
        ({ w with
           store := upsert doc w.store (batch.filter fun c => c.id ∈ done)
           journal := w.journal ++
             [errorEntry args ts doc "store failed for " (units " batch@" ++ decimalText offset) message] },
          .finished false true)
  | .finished _ _ => none

inductive IngestAction where
  /-- a run that fetches these documents -/
  | runSource (docs : List RawDoc)
  /-- the next step of one of its tasks -/
  | task (index : Nat) (ts : List Nat) (answer : Answer)

def Phase.isFinished : Phase → Bool
  | .finished _ _ => true
  | _ => false

def Phase.isErrored : Phase → Bool
  | .finished _ errored => errored
  | _ => false

def IngestWorld.idle (w : IngestWorld) : Bool := w.tasks.all fun task => task.2.isFinished

/-- The errors in the tally of the run. -/
def IngestWorld.errors (w : IngestWorld) : Nat := w.tasks.countP fun task => task.2.isErrored

/-- The documents of one run have distinct ids, and a run begins when the one before it is through. -/
def ingestStep (w : IngestWorld) : IngestAction → Option IngestWorld
  | .runSource docs =>
    if w.idle ∧ (docs.map RawDoc.id).Nodup then some { w with tasks := docs.map fun doc => (doc, .fetched) }
    else none
  | .task index ts answer =>
    match w.tasks[index]? with
    | none => none
    | some (doc, phase) =>
      match processDoc args sha w ts doc answer phase with
      | none => none
      | some (next, phase) => some { next with tasks := w.tasks.set index (doc, phase) }

/-! The ids under which the chunks of a document are stored. -/

theorem append_cons_inj_of_not_mem {α : Type} {a : α} {xs ys us vs : List α} (hu : a ∉ us) (hv : a ∉ vs)
    (h : xs ++ a :: us = ys ++ a :: vs) : xs = ys ∧ us = vs := by
  obtain ⟨zs, hzs⟩ | ⟨zs, hzs⟩ := append_eq_append_iff.mp h
  all_goals
    obtain ⟨hleft, hright⟩ := hzs
    cases zs with
    | nil => simp_all
    | cons z zs =>
      obtain ⟨rfl, hrest⟩ := List.cons.inj hright
      simp_all

theorem cons_append_inj_of_not_mem {α : Type} {a : α} {xs ys us vs : List α} (hx : a ∉ xs) (hy : a ∉ ys)
    (h : xs ++ a :: us = ys ++ a :: vs) : xs = ys ∧ us = vs := by
  have hreverse : us.reverse ++ a :: xs.reverse = vs.reverse ++ a :: ys.reverse := by
    simpa using congrArg List.reverse h
  obtain ⟨hu, hx⟩ := append_cons_inj_of_not_mem (by simpa using hx) (by simpa using hy) hreverse
  exact ⟨reverse_injective hx, reverse_injective hu⟩

theorem hash_not_mem_decimalText (i : Nat) : 0x23 ∉ decimalText i := by
  simp only [decimalText, digitText, mem_map, not_exists, not_and]
  intro d _
  omega

theorem decimalText_inj {i j : Nat} (h : decimalText i = decimalText j) : i = j := by
  have hdigits : natDigits i = natDigits j := by
    apply map_injective_iff.mpr _ h
    intro a b hab
    apply Fin.ext
    dsimp only at hab
    omega
  rw [← digitsValue_natDigits i, hdigits, digitsValue_natDigits]

theorem chunkId_inj {a b : List Nat} {i j : Nat} (h : chunkId a i = chunkId b j) : a = b ∧ i = j := by
  obtain ⟨hid, htext⟩ := append_cons_inj_of_not_mem (hash_not_mem_decimalText i) (hash_not_mem_decimalText j) h
  exact ⟨hid, decimalText_inj htext⟩

/-- The id is made of `root` by this many chunk markers. -/
inductive Marked (root : List Nat) : Nat → List Nat → Prop where
  | root : Marked root 0 root
  | chunk {n : Nat} {id : List Nat} (i : Nat) : Marked root n id → Marked root (n + 1) (chunkId id i)

theorem Marked.root_unique {a b id : List Nat} {n : Nat} (ha : Marked a n id) (hb : Marked b n id) : a = b := by
  induction n generalizing id with
  | zero =>
    cases ha
    cases hb
    rfl
  | succ n ih =>
    obtain ⟨-, ha⟩ | ⟨i, ha⟩ := ha
    generalize hid : chunkId _ i = id at hb
    cases hb with
    | chunk j hb =>
      obtain ⟨rfl, -⟩ := chunkId_inj hid
      exact ih ha hb

theorem Marked.initial {root id : List Nat} {n : Nat} (h : Marked root n id) : root <+: id := by
  induction h with
  | root => exact prefix_refl _
  | chunk i _ ih => exact ih.trans (prefix_append ..)

theorem Marked.reroot {root id : List Nat} {n : Nat} (other : List Nat) (h : Marked root n id) :
    Marked other n (other ++ id.drop root.length) := by
  induction h with
  | root => simpa using Marked.root
  | @chunk n id i h ih =>
    have hle := h.initial.length_le
    rw [chunkId, drop_append_of_le_length hle, ← append_assoc]
    exact ih.chunk i

theorem mem_markdownChunkTransform {spec : ChunkSpec} {docs : List RawDoc} {c : RawDoc}
    (hmem : c ∈ markdownChunkTransform spec docs) : ∃ doc ∈ docs, ∃ i, c.id = chunkId doc.id i := by
  obtain ⟨doc, hdoc, hc⟩ := mem_flatMap.mp hmem
  obtain ⟨i, hi, rfl⟩ := mem_mapIdx.mp hc
  exact ⟨doc, hdoc, i, rfl⟩

/-- A transform gives distinct ids to the chunks of documents with distinct ids. -/
theorem nodup_markdownChunkTransform {spec : ChunkSpec} {docs : List RawDoc} (hnodup : (docs.map RawDoc.id).Nodup) :
    ((markdownChunkTransform spec docs).map RawDoc.id).Nodup := by
  unfold markdownChunkTransform
  rw [map_flatMap, nodup_flatMap]
  constructor
  · intro doc _
    apply pairwise_iff_getElem.mpr
    intro i j hi hj hlt heq
    simp only [getElem_map, getElem_mapIdx] at heq
    have hij := (chunkId_inj heq).2
    omega
  apply (pairwise_map.mp hnodup).imp
  intro doc other hne id hid hother
  obtain ⟨c, hc, rfl⟩ := mem_map.mp hid
  obtain ⟨i, _, rfl⟩ := mem_mapIdx.mp hc
  obtain ⟨d, hd, heq⟩ := mem_map.mp hother
  obtain ⟨j, _, rfl⟩ := mem_mapIdx.mp hd
  exact hne (chunkId_inj heq).1.symm

/-- What the transforms make of a document: ids with one marker for each of them, all distinct. -/
theorem foldl_transforms (doc : RawDoc) (transforms : List ChunkSpec) :
    (∀ c ∈ transforms.foldl (fun docs spec => markdownChunkTransform spec docs) [doc],
      Marked doc.id transforms.length c.id) ∧
    ((transforms.foldl (fun docs spec => markdownChunkTransform spec docs) [doc]).map RawDoc.id).Nodup := by
  induction transforms using List.reverseRecOn with
  | nil =>
    refine ⟨?_, nodup_singleton _⟩
    intro c hc
    rw [mem_singleton.mp hc]
    exact .root
  | append_singleton transforms spec ih =>
    simp only [foldl_append, foldl_cons, foldl_nil, length_append, length_singleton]
    refine ⟨?_, nodup_markdownChunkTransform ih.2⟩
    intro c hc
    obtain ⟨part, hpart, i, hid⟩ := mem_markdownChunkTransform hc
    rw [hid]
    exact (ih.1 part hpart).chunk i

/-- The document is kept whole, or each of its chunks carries one marker for each transform. -/
theorem applyTransforms_ids (doc : RawDoc) (transforms : List ChunkSpec) :
    applyTransforms doc transforms = [doc] ∨
      ∀ c ∈ applyTransforms doc transforms, Marked doc.id transforms.length c.id := by
  unfold applyTransforms
  dsimp only
  split
  · exact .inl rfl
  · exact .inr (foldl_transforms doc transforms).1

theorem applyTransforms_nodup (doc : RawDoc) (transforms : List ChunkSpec) :
    ((applyTransforms doc transforms).map RawDoc.id).Nodup := by
  unfold applyTransforms
  dsimp only
  split
  · exact nodup_singleton _
  · exact (foldl_transforms doc transforms).2

end llamactl.rag
