import Llamactl.Rag.Runtime

open collections effect js List

namespace llamactl.rag

/-! What the store holds after runs of a one-source pipeline in `replace` mode. -/

section

theorem get?_deleteIds (remove : List Nat → Bool) (store : Collection) (k : List Nat) :
    (deleteIds remove store).get? k = if remove k then none else store.get? k := by
  have hfold : ∀ (ks : List (List Nat)) (m : Collection),
      (ks.foldl OrderedMap.erase m).get? k = if k ∈ ks then none else m.get? k := by
    intro ks
    induction ks with
    | nil => simp
    | cons key ks ih =>
      intro m
      rw [foldl_cons, ih, OrderedMap.get?_erase]
      by_cases hk : k = key
      · simp [hk]
      · simp [hk]
  unfold deleteIds
  rw [hfold]
  by_cases hremove : remove k = true
  · by_cases hkey : k ∈ store.keys
    · simp [hremove, hkey]
    · have hnone : store.get? k = none := (OrderedMap.get?_eq_none_iff store).mpr hkey
      simp [hremove, hnone]
  · simp [hremove]

variable {doc : RawDoc} {store : Collection}

theorem get?_upsert_other {chunks : List RawDoc} {k : List Nat} (hk : k ∉ chunks.map RawDoc.id) :
    (upsert doc store chunks).get? k = store.get? k := by
  induction chunks generalizing store with
  | nil => rfl
  | cons c chunks ih =>
    simp only [map_cons, mem_cons, not_or] at hk
    have hrest : (upsert doc (store.set c.id ⟨c.content, doc.id, doc.content⟩) chunks).get? k = _ := ih hk.2
    rw [OrderedMap.get?_set, if_neg hk.1] at hrest
    exact hrest

theorem get?_upsert_mem {chunks : List RawDoc} (hnodup : (chunks.map RawDoc.id).Nodup) {c : RawDoc} (hc : c ∈ chunks) :
    (upsert doc store chunks).get? c.id = some ⟨c.content, doc.id, doc.content⟩ := by
  induction chunks generalizing store with
  | nil => exact absurd hc not_mem_nil
  | cons d chunks ih =>
    obtain ⟨hd, hrest⟩ := nodup_cons.mp hnodup
    rcases mem_cons.mp hc with rfl | hmem
    · have hother : (upsert doc (store.set c.id ⟨c.content, doc.id, doc.content⟩) chunks).get? c.id = _ :=
        get?_upsert_other hd
      rw [OrderedMap.get?_set, if_pos rfl] at hother
      exact hother
    · exact ih hrest hmem

theorem get?_upsert_cases (doc : RawDoc) (store : Collection) (chunks : List RawDoc) (k : List Nat) :
    (upsert doc store chunks).get? k = store.get? k ∨
      k ∈ chunks.map RawDoc.id ∧ ∀ s, (upsert doc store chunks).get? k = some s → s.docId = doc.id := by
  induction chunks generalizing store with
  | nil => exact .inl rfl
  | cons c chunks ih =>
    have hrest := ih (store.set c.id ⟨c.content, doc.id, doc.content⟩)
    rw [OrderedMap.get?_set] at hrest
    change (upsert doc (store.set c.id ⟨c.content, doc.id, doc.content⟩) chunks).get? k = _ ∨ _ ∧
      ∀ s, (upsert doc (store.set c.id ⟨c.content, doc.id, doc.content⟩) chunks).get? k = some s → _
    rcases hrest with hsame | ⟨hmem, htag⟩
    · by_cases hk : k = c.id
      · refine .inr ⟨by simp [hk], ?_⟩
        intro s hs
        rw [hsame, if_pos hk] at hs
        cases hs
        rfl
      · rw [if_neg hk] at hsame
        exact .inl hsame
    · exact .inr ⟨mem_cons_of_mem _ hmem, htag⟩

end

section

variable (args : SourceArgs)

theorem indexesOf_append (journal : List JournalEntry) (entry : JournalEntry) :
    indexesOf (journal ++ [entry]) = (indexesOf journal).append entry := by
  simp [indexesOf]

theorem key_inj {label docId docId' sha sha' : List Nat} (hlength : sha.length = sha'.length)
    (h : key label docId sha = key label docId' sha') : docId = docId' ∧ sha = sha' := by
  unfold key at h
  rw [append_assoc, append_assoc] at h
  have hrest := (List.cons.inj (append_cancel_left h)).2
  obtain ⟨hid, htail⟩ := append_inj' hrest (by simp [hlength])
  exact ⟨hid, (List.cons.inj htail).2⟩

def About (sha : Sha256) (doc : RawDoc) : JournalEntry → Prop
  | .docIngested entry => entry.source = args.label ∧ entry.docId = doc.id ∧ entry.sha = sha.hex doc.content
  | _ => True

variable {args} {sha : Sha256}

theorem indexes_other (indexes : JournalIndexes) {doc other : RawDoc} {entry : JournalEntry}
    (habout : About args sha doc entry) (hne : other.id ≠ doc.id) :
    (indexes.append entry).seen? args.label other.id (sha.hex other.content) =
      indexes.seen? args.label other.id (sha.hex other.content) ∧
    (indexes.append entry).priorIngestions args.label other.id =
      indexes.priorIngestions args.label other.id := by
  cases entry with
  | docIngested entry =>
    obtain ⟨hsource, hdoc, hsha⟩ := habout
    constructor
    · have hkey : key args.label other.id (sha.hex other.content) ≠ key entry.source entry.docId entry.sha := by
        rw [hsource, hdoc, hsha]
        intro heq
        exact hne (key_inj (by rw [sha.length, sha.length]) heq).1
      have hiff : key args.label other.id (sha.hex other.content) ∈ (indexes.append (.docIngested entry)).seen ↔
          key args.label other.id (sha.hex other.content) ∈ indexes.seen := by
        rw [mem_seen_append]
        constructor
        · rintro (hmem | ⟨d, heq, hd⟩)
          · exact hmem
          · cases heq
            exact absurd hd hkey
        · exact .inl
      simp only [JournalIndexes.seen?, hiff]
    have hkey : docKey args.label other.id ≠ docKey entry.source entry.docId := by
      rw [hsource, hdoc]
      intro heq
      exact hne (List.cons.inj (append_cancel_left heq)).2
    simp [JournalIndexes.priorIngestions, JournalIndexes.append, JournalIndexes.add, OrderedMap.get?_set, hkey]
  | _ => exact ⟨rfl, rfl⟩

/-- What the journal says of a document: whether this content was ingested, and the ids it recorded. -/
def SameView (args : SourceArgs) (sha : Sha256) (w w' : IngestWorld) (doc : RawDoc) : Prop :=
  seenBefore args sha w' doc = seenBefore args sha w doc ∧ priorChunkIds args w' doc = priorChunkIds args w doc

theorem sameView_append {w w' : IngestWorld} {doc other : RawDoc} {entries : List JournalEntry}
    (hjournal : w'.journal = w.journal ++ entries) (habout : ∀ entry ∈ entries, About args sha doc entry)
    (hne : other.id ≠ doc.id) : SameView args sha w w' other := by
  have hfold : ∀ (journal : List JournalEntry), (∀ entry ∈ entries, About args sha doc entry) →
      (indexesOf (journal ++ entries)).seen? args.label other.id (sha.hex other.content) =
        (indexesOf journal).seen? args.label other.id (sha.hex other.content) ∧
      (indexesOf (journal ++ entries)).priorIngestions args.label other.id =
        (indexesOf journal).priorIngestions args.label other.id := by
    clear hjournal habout
    induction entries with
    | nil => simp
    | cons entry entries ih =>
      intro journal habout
      have hone := indexes_other (indexesOf journal) (habout entry mem_cons_self) hne
      have hrest := ih (journal ++ [entry]) fun e he => habout e (mem_cons_of_mem _ he)
      rw [indexesOf_append, append_assoc, singleton_append] at hrest
      exact ⟨hrest.1.trans hone.1, hrest.2.trans hone.2⟩
  obtain ⟨hseen, hprior⟩ := hfold w.journal habout
  unfold SameView seenBefore priorChunkIds collectPriorChunkIds
  rw [hjournal, hseen, hprior]
  exact ⟨rfl, rfl⟩

end

/-- A pipeline's one source, in `replace` mode. -/
def replaceArgs (label : List Nat) (transforms : List ChunkSpec) : SourceArgs := ⟨label, transforms, .replace⟩

def chunkIds (transforms : List ChunkSpec) (doc : RawDoc) : List (List Nat) :=
  (applyTransforms doc transforms).map RawDoc.id

def lastAttempt (w : IngestWorld) (id : List Nat) : Option Attempt :=
  (w.attempts.filter fun a => a.doc.id = id).getLast?

/-- The store holds the chunks of the document's content, and no other chunk that was stored for it. -/
structure Exact (transforms : List ChunkSpec) (store : Collection) (doc : RawDoc) : Prop where
  held : ∀ c ∈ applyTransforms doc transforms, store.get? c.id = some ⟨c.content, doc.id, doc.content⟩
  only : ∀ k s, store.get? k = some s → s.docId = doc.id →
    s.version = doc.content ∧ ∃ c ∈ applyTransforms doc transforms, c.id = k ∧ c.content = s.content

/-- After a run that reports no errors the store holds exactly the chunks of each of its documents. -/
def Converged (transforms : List ChunkSpec) (w : IngestWorld) : Prop :=
  w.idle = true → w.errors = 0 → ∀ task ∈ w.tasks, Exact transforms w.store task.1

variable (label : List Nat) (transforms : List ChunkSpec) (sha : Sha256)

/-- An id that the task of a document deletes or stores. -/
def Touches (w : IngestWorld) (doc : RawDoc) (k : List Nat) : Prop :=
  listed (priorChunkIds (replaceArgs label transforms) w doc) k = true ∨ k ∈ chunkIds transforms doc

/-- What a run needs of the documents it fetches. -/
structure Manageable (w : IngestWorld) (docs : List RawDoc) : Prop where
  /-- a content that the journal has seen is the one that was stored last, and completely -/
  latest : ∀ doc ∈ docs, seenBefore (replaceArgs label transforms) sha w doc = true →
    lastAttempt w doc.id = some ⟨doc, true⟩
  /-- all that is stored for a document to be stored is recorded, or is about to be overwritten -/
  recorded : ∀ doc ∈ docs, seenBefore (replaceArgs label transforms) sha w doc = false →
    ∀ k s, w.store.get? k = some s → s.docId = doc.id → Touches label transforms w doc k
  /-- what a task touches belongs to no other document -/
  separate : ∀ doc ∈ docs, ∀ k, Touches label transforms w doc k →
    (∀ s, w.store.get? k = some s → s.docId = doc.id) ∧
      ∀ other ∈ docs, other.id ≠ doc.id → k ∉ chunkIds transforms other

def RunsManageable (w : IngestWorld) : IngestAction → Prop
  | .runSource docs => Manageable label transforms sha w docs
  | .task .. => True

/-- What one step of a document's task may change, for the task of a run that began in `base`. -/
structure Effect (base w next : IngestWorld) (doc : RawDoc) : Prop where
  store : ∀ k, next.store.get? k = w.store.get? k ∨
    Touches label transforms base doc k ∧ ∀ s, next.store.get? k = some s → s.docId = doc.id
  journal : ∃ entries, next.journal = w.journal ++ entries ∧
    ∀ entry ∈ entries, About (replaceArgs label transforms) sha doc entry
  attempts : ∃ more, next.attempts = w.attempts ++ more ∧ ∀ a ∈ more, a.doc = doc

/-- What is stored for the document with this id is what was stored for it when the run began. -/
def Untouched (base w : IngestWorld) (id : List Nat) : Prop :=
  ∀ k s, s.docId = id → (w.store.get? k = some s ↔ base.store.get? k = some s)

/-- So much of the chunks is stored, and nothing else is left of the document but ids still to be stored. -/
structure Storing (w : IngestWorld) (doc : RawDoc) (done : List RawDoc) : Prop where
  held : ∀ c ∈ done, w.store.get? c.id = some ⟨c.content, doc.id, doc.content⟩
  only : ∀ k s, w.store.get? k = some s → s.docId = doc.id → k ∈ chunkIds transforms doc

/-- What holds of a document's task in each of its phases. -/
def TaskInv (base w : IngestWorld) (doc : RawDoc) : Phase → Prop
  | .fetched => Untouched base w doc.id ∧ SameView (replaceArgs label transforms) sha base w doc ∧
      lastAttempt w doc.id = lastAttempt base doc.id
  | .replacing chunks => chunks = applyTransforms doc transforms ∧
      seenBefore (replaceArgs label transforms) sha base doc = false ∧ Untouched base w doc.id ∧
      SameView (replaceArgs label transforms) sha base w doc ∧ lastAttempt w doc.id = lastAttempt base doc.id
  | .storing chunks errored rest => chunks = applyTransforms doc transforms ∧
      lastAttempt w doc.id = some ⟨doc, false⟩ ∧
      ∃ done, chunks = done ++ rest ∧ (errored = false → Storing transforms w doc done)
  | .finished true _ => Untouched base w doc.id ∧
      seenBefore (replaceArgs label transforms) sha base doc = true ∧
      lastAttempt w doc.id = lastAttempt base doc.id
  | .finished false true => lastAttempt w doc.id = some ⟨doc, false⟩
  | .finished false false => Exact transforms w.store doc ∧ lastAttempt w doc.id = some ⟨doc, true⟩

section

variable {label transforms sha} {base w next : IngestWorld} {doc : RawDoc}

theorem storedChunks_replace (w : IngestWorld) (doc : RawDoc) :
    storedChunks (replaceArgs label transforms) sha w doc = applyTransforms doc transforms := by
  simp [storedChunks, versionChunkIdSuffix, applyChunkIdSuffix, replaceArgs]

theorem lastAttempt_append_self {earlier : List Attempt} {b : Bool}
    (hattempts : next.attempts = earlier ++ [⟨doc, b⟩]) : lastAttempt next doc.id = some ⟨doc, b⟩ := by
  simp [lastAttempt, hattempts, filter_append]

theorem Effect.lastAttempt_other (h : Effect label transforms sha base w next doc) {id : List Nat} (hne : id ≠ doc.id) :
    lastAttempt next id = lastAttempt w id := by
  obtain ⟨more, hmore, hdoc⟩ := h.attempts
  have hnone : more.filter (fun a => decide (a.doc.id = id)) = [] := by
    apply filter_eq_nil_iff.mpr
    intro a ha
    rw [hdoc a ha]
    simpa using Ne.symm hne
  simp [lastAttempt, hmore, filter_append, hnone]

theorem Effect.untouched_other (h : Effect label transforms sha base w next doc) {id : List Nat} (hne : id ≠ doc.id)
    (hseparate : ∀ k, Touches label transforms base doc k → ∀ s, base.store.get? k = some s → s.docId = doc.id)
    (hu : Untouched base w id) : Untouched base next id := by
  intro k s hs
  rcases h.store k with hsame | ⟨htouches, htag⟩
  · rw [hsame]
    exact hu k s hs
  constructor
  · intro hget
    exact absurd (hs.symm.trans (htag s hget)) hne
  · intro hget
    exact absurd (hs.symm.trans (hseparate k htouches s hget)) hne

/-- A step of one document's task keeps what holds of every other's. -/
theorem TaskInv.other {docs : List RawDoc} (hm : Manageable label transforms sha base docs)
    (h : Effect label transforms sha base w next doc) {other : RawDoc} (hdoc : doc ∈ docs) (hother : other ∈ docs)
    (hne : other.id ≠ doc.id) {phase : Phase} (hinv : TaskInv label transforms sha base w other phase) :
    TaskInv label transforms sha base next other phase := by
  have huntouched : Untouched base w other.id → Untouched base next other.id :=
    h.untouched_other hne fun k hk => (hm.separate doc hdoc k hk).1
  have hlast := h.lastAttempt_other hne
  have hview : SameView (replaceArgs label transforms) sha w next other := by
    obtain ⟨entries, hentries, habout⟩ := h.journal
    exact sameView_append hentries habout hne
  -- an id of the other document is not touched
  have hget : ∀ k ∈ chunkIds transforms other, next.store.get? k = w.store.get? k := by
    intro k hk
    rcases h.store k with hsame | ⟨htouches, -⟩
    · exact hsame
    · exact absurd hk ((hm.separate doc hdoc k htouches).2 other hother hne)
  -- what is stored for the other document was there before
  have hback : ∀ k s, next.store.get? k = some s → s.docId = other.id → w.store.get? k = some s := by
    intro k s hs hid
    rcases h.store k with hsame | ⟨-, htag⟩
    · rw [← hsame]
      exact hs
    · exact absurd (hid.symm.trans (htag s hs)) hne
  cases phase with
  | fetched =>
    obtain ⟨hu, hv, hl⟩ := hinv
    exact ⟨huntouched hu, ⟨hview.1.trans hv.1, hview.2.trans hv.2⟩, hlast.trans hl⟩
  | replacing chunks =>
    obtain ⟨hchunks, hseen, hu, hv, hl⟩ := hinv
    exact ⟨hchunks, hseen, huntouched hu, ⟨hview.1.trans hv.1, hview.2.trans hv.2⟩, hlast.trans hl⟩
  | storing chunks errored rest =>
    obtain ⟨hchunks, hl, done, hdone, hstoring⟩ := hinv
    refine ⟨hchunks, hlast.trans hl, done, hdone, fun herrored => ?_⟩
    obtain ⟨hheld, honly⟩ := hstoring herrored
    refine ⟨fun c hc => ?_, fun k s hs hid => honly k s (hback k s hs hid) hid⟩
    have hmem : c.id ∈ chunkIds transforms other := by
      apply mem_map_of_mem
      rw [← hchunks, hdone]
      exact mem_append_left _ hc
    rw [hget c.id hmem]
    exact hheld c hc
  | finished skipped errored =>
    cases skipped with
    | true =>
      obtain ⟨hu, hseen, hl⟩ := hinv
      exact ⟨huntouched hu, hseen, hlast.trans hl⟩
    | false =>
      cases errored with
      | true => exact hlast.trans hinv
      | false =>
        obtain ⟨⟨hheld, honly⟩, hl⟩ := hinv
        refine ⟨⟨fun c hc => ?_, fun k s hs hid => honly k s (hback k s hs hid) hid⟩, hlast.trans hl⟩
        rw [hget c.id (mem_map_of_mem hc)]
        exact hheld c hc

theorem Effect.of_journal {entries : List JournalEntry} (hstore : next.store = w.store)
    (hattempts : next.attempts = w.attempts) (hjournal : next.journal = w.journal ++ entries)
    (habout : ∀ entry ∈ entries, About (replaceArgs label transforms) sha doc entry) :
    Effect label transforms sha base w next doc where
  store := fun k => .inl (by rw [hstore])
  journal := ⟨entries, hjournal, habout⟩
  attempts := ⟨[], by simp [hattempts], fun a ha => absurd ha not_mem_nil⟩

theorem untouched_of_store {id : List Nat} (hu : Untouched base w id) (hstore : next.store = w.store) :
    Untouched base next id := by
  intro k s hs
  rw [hstore]
  exact hu k s hs

theorem lastAttempt_congr {id : List Nat} (hattempts : next.attempts = w.attempts) :
    lastAttempt next id = lastAttempt w id := by
  simp [lastAttempt, hattempts]

theorem listed_nil (k : List Nat) : listed [] k = false := rfl

/-- The deletion removes what the journal recorded, or fails and is reported. -/
theorem replacePriorChunks_spec (args : SourceArgs) (w : IngestWorld) (ts : List Nat) (doc : RawDoc) (answer : Answer) :
    (∀ k, (replacePriorChunks args w ts doc answer).1.get? k = w.store.get? k ∨
      listed (priorChunkIds args w doc) k = true ∧ (replacePriorChunks args w ts doc answer).1.get? k = none) ∧
    ((replacePriorChunks args w ts doc answer).2 = none → ∀ k, listed (priorChunkIds args w doc) k = true →
      (replacePriorChunks args w ts doc answer).1.get? k = none) ∧
    ∀ entry ∈ (replacePriorChunks args w ts doc answer).2, ∃ message,
      entry = errorEntry args ts doc "replace-delete failed for " [] message := by
  unfold replacePriorChunks
  dsimp only
  split
  · rename_i hnil
    rw [hnil]
    refine ⟨fun k => .inl rfl, fun _ k hk => ?_, by simp⟩
    rw [listed_nil] at hk
    cases hk
  cases answer with
  | ok =>
    refine ⟨fun k => ?_, fun _ k hk => ?_, by simp⟩
    · rw [get?_deleteIds]
      split
      · exact .inr ⟨by assumption, rfl⟩
      · exact .inl rfl
    · rw [get?_deleteIds, if_pos hk]
  | failed message done =>
    refine ⟨fun k => ?_, by simp, ?_⟩
    · rw [get?_deleteIds]
      split
      · rename_i hremove
        exact .inr ⟨(Bool.and_eq_true _ _ ▸ hremove).1, rfl⟩
      · exact .inl rfl
    · intro entry hentry
      exact ⟨message, (Option.mem_some.mp hentry).symm⟩

end

section

variable {label transforms sha} {base w next : IngestWorld} {doc : RawDoc} {docs : List RawDoc}
  {ts : List Nat} {answer : Answer} {phase' : Phase}

theorem TaskInv.fetched_step (hinv : TaskInv label transforms sha base w doc .fetched)
    (hstep : processDoc (replaceArgs label transforms) sha w ts doc answer .fetched = some (next, phase')) :
    Effect label transforms sha base w next doc ∧ TaskInv label transforms sha base next doc phase' := by
  obtain ⟨hu, hv, hl⟩ := hinv
  rw [processDoc] at hstep
  split at hstep
  · rename_i hseen
    cases hstep
    refine ⟨Effect.of_journal rfl rfl rfl ?_, untouched_of_store hu rfl, ?_, (lastAttempt_congr rfl).trans hl⟩
    · intro entry hentry
      rw [mem_singleton.mp hentry]
      trivial
    · rw [← hv.1]
      exact hseen
  rename_i hseen
  cases hstep
  refine ⟨Effect.of_journal rfl rfl (append_nil _).symm nofun, storedChunks_replace w doc, ?_, hu, hv, hl⟩
  rw [← hv.1]
  simpa using hseen

theorem TaskInv.replacing_step (hm : Manageable label transforms sha base docs) (hdoc : doc ∈ docs)
    {chunks : List RawDoc} (hinv : TaskInv label transforms sha base w doc (.replacing chunks))
    (hstep : processDoc (replaceArgs label transforms) sha w ts doc answer (.replacing chunks) = some (next, phase')) :
    Effect label transforms sha base w next doc ∧ TaskInv label transforms sha base next doc phase' := by
  obtain ⟨hchunks, hseen, hu, hv, hl⟩ := hinv
  obtain ⟨hdelete, hclean, herror⟩ := replacePriorChunks_spec (replaceArgs label transforms) w ts doc answer
  rw [hv.2] at hdelete hclean
  rw [processDoc, if_pos (show (replaceArgs label transforms).onDuplicate = .replace from rfl)] at hstep
  generalize replacePriorChunks (replaceArgs label transforms) w ts doc answer = deleted at *
  obtain ⟨store, error⟩ := deleted
  cases hstep
  refine ⟨⟨?_, ⟨_, rfl, ?_⟩, ⟨_, rfl, ?_⟩⟩, hchunks, ?_, [], rfl, ?_⟩
  · intro k
    rcases hdelete k with hsame | ⟨hlisted, hnone⟩
    · exact .inl hsame
    refine .inr ⟨.inl hlisted, fun s hs => ?_⟩
    rw [hnone] at hs
    cases hs
  · intro entry hentry
    obtain ⟨message, rfl⟩ := herror entry (Option.mem_toList.mp hentry)
    trivial
  · intro a ha
    rw [mem_singleton.mp ha]
  · exact lastAttempt_append_self rfl
  intro herrored
  refine ⟨nofun, fun k s hs hid => ?_⟩
  have hsucceeded : error = none := by simpa using herrored
  -- what is still there was there when the run began, and is not among the ids that were deleted
  have hw : w.store.get? k = some s := by
    rcases hdelete k with hsame | ⟨-, hnone⟩
    · rw [← hsame]
      exact hs
    · exact absurd (hnone.symm.trans hs) nofun
  rcases hm.recorded doc hdoc hseen k s ((hu k s hid).mp hw) hid with hlisted | hmem
  · exact absurd ((hclean hsucceeded k hlisted).symm.trans hs) nofun
  · exact hmem

theorem TaskInv.stored_step {chunks : List RawDoc} {errored : Bool}
    (hinv : TaskInv label transforms sha base w doc (.storing chunks errored []))
    (hstep : processDoc (replaceArgs label transforms) sha w ts doc answer (.storing chunks errored []) =
      some (next, phase')) :
    Effect label transforms sha base w next doc ∧ TaskInv label transforms sha base next doc phase' := by
  obtain ⟨hchunks, hl, done, hdone, hstoring⟩ := hinv
  rw [append_nil] at hdone
  rw [processDoc] at hstep
  split at hstep
  · rename_i herrored
    cases hstep
    exact ⟨Effect.of_journal rfl rfl (append_nil _).symm nofun, hl⟩
  rename_i herrored
  cases hstep
  obtain ⟨hheld, honly⟩ := hstoring (by simpa using herrored)
  refine ⟨⟨fun k => .inl rfl, ⟨_, rfl, ?_⟩, ⟨_, rfl, ?_⟩⟩, ⟨?_, ?_⟩, ?_⟩
  · intro entry hentry
    rw [mem_singleton.mp hentry]
    exact ⟨rfl, rfl, rfl⟩
  · intro a ha
    rw [mem_singleton.mp ha]
  · intro c hc
    rw [← hchunks, hdone] at hc
    exact hheld c hc
  · intro k s hs hid
    obtain ⟨c, hc, rfl⟩ := mem_map.mp (honly k s hs hid)
    have hheldc : w.store.get? c.id = some ⟨c.content, doc.id, doc.content⟩ := by
      apply hheld
      rw [← hdone, hchunks]
      exact hc
    have heq : (⟨c.content, doc.id, doc.content⟩ : Stored) = s := Option.some.inj (hheldc.symm.trans hs)
    rw [← heq]
    exact ⟨rfl, c, hc, rfl, rfl⟩
  · exact lastAttempt_append_self rfl

theorem TaskInv.storing_step {chunks rest : List RawDoc} {c : RawDoc} {errored : Bool}
    (hinv : TaskInv label transforms sha base w doc (.storing chunks errored (c :: rest)))
    (hstep : processDoc (replaceArgs label transforms) sha w ts doc answer (.storing chunks errored (c :: rest)) =
      some (next, phase')) :
    Effect label transforms sha base w next doc ∧ TaskInv label transforms sha base next doc phase' := by
  obtain ⟨hchunks, hl, done, hdone, hstoring⟩ := hinv
  have hnodup : ((done ++ (c :: rest)).map RawDoc.id).Nodup := by
    rw [← hdone, hchunks]
    exact applyTransforms_nodup ..
  have hids : ∀ d ∈ (c :: rest).take BATCH_SIZE, d.id ∈ chunkIds transforms doc := by
    intro d hd
    apply mem_map_of_mem
    rw [← hchunks, hdone]
    exact mem_append_right _ (mem_of_mem_take hd)
  -- an upsert of chunks of the batch touches ids of the document only
  have heffect : ∀ batch : List RawDoc, (∀ d ∈ batch, d ∈ (c :: rest).take BATCH_SIZE) → ∀ k,
      (upsert doc w.store batch).get? k = w.store.get? k ∨
        Touches label transforms base doc k ∧ ∀ s, (upsert doc w.store batch).get? k = some s → s.docId = doc.id := by
    intro batch hbatch k
    rcases get?_upsert_cases doc w.store batch k with hsame | ⟨hmem, htag⟩
    · exact .inl hsame
    · obtain ⟨d, hd, rfl⟩ := mem_map.mp hmem
      exact .inr ⟨.inr (hids d (hbatch d hd)), htag⟩
  cases answer with
  | failed message written =>
    rw [processDoc] at hstep
    cases hstep
    refine ⟨⟨heffect _ fun d hd => (mem_filter.mp hd).1, ⟨_, rfl, ?_⟩,
      ⟨[], (append_nil _).symm, nofun⟩⟩, hl⟩
    intro entry hentry
    rw [mem_singleton.mp hentry]
    trivial
  | ok =>
    rw [processDoc] at hstep
    cases hstep
    refine ⟨⟨heffect _ fun d hd => hd, ⟨[], (append_nil _).symm, nofun⟩, ⟨[], (append_nil _).symm, nofun⟩⟩,
      hchunks, hl, done ++ (c :: rest).take BATCH_SIZE, ?_, fun herrored => ?_⟩
    · rw [append_assoc, take_append_drop]
      exact hdone
    obtain ⟨hheld, honly⟩ := hstoring herrored
    rw [map_append, nodup_append] at hnodup
    obtain ⟨-, hrest, hdisjoint⟩ := hnodup
    constructor
    · intro d hd
      rcases mem_append.mp hd with hold | hnew
      · have hother : d.id ∉ ((c :: rest).take BATCH_SIZE).map RawDoc.id := by
          intro hmem
          obtain ⟨e, he, heq⟩ := mem_map.mp hmem
          exact hdisjoint d.id (mem_map_of_mem hold) e.id (mem_map_of_mem (mem_of_mem_take he))
            heq.symm
        exact (get?_upsert_other hother).trans (hheld d hold)
      · exact get?_upsert_mem (hrest.sublist ((take_sublist ..).map _)) hnew
    intro k s hs hid
    rcases get?_upsert_cases doc w.store ((c :: rest).take BATCH_SIZE) k with hsame | ⟨hmem, -⟩
    · exact honly k s (hsame ▸ hs) hid
    · obtain ⟨d, hd, rfl⟩ := mem_map.mp hmem
      exact hids d hd

theorem TaskInv.own (hm : Manageable label transforms sha base docs) (hdoc : doc ∈ docs) {phase : Phase}
    (hinv : TaskInv label transforms sha base w doc phase)
    (hstep : processDoc (replaceArgs label transforms) sha w ts doc answer phase = some (next, phase')) :
    Effect label transforms sha base w next doc ∧ TaskInv label transforms sha base next doc phase' := by
  cases phase with
  | fetched => exact TaskInv.fetched_step hinv hstep
  | replacing chunks => exact TaskInv.replacing_step hm hdoc hinv hstep
  | storing chunks errored rest =>
    cases rest with
    | nil => exact TaskInv.stored_step hinv hstep
    | cons c rest => exact TaskInv.storing_step hinv hstep
  | finished skipped errored => cases hstep

end

section

variable {label transforms sha} {base w next : IngestWorld}

/-- What was stored last and completely is what the store holds. -/
def Settled (transforms : List ChunkSpec) (w : IngestWorld) : Prop :=
  ∀ doc, lastAttempt w doc.id = some ⟨doc, true⟩ → Exact transforms w.store doc

/-- A run in progress, against the world in which it began. -/
structure Running (label : List Nat) (transforms : List ChunkSpec) (sha : Sha256) (base w : IngestWorld) : Prop where
  settled : Settled transforms base
  manageable : Manageable label transforms sha base (w.tasks.map Prod.fst)
  distinct : (w.tasks.map fun task => task.1.id).Nodup
  tasks : ∀ task ∈ w.tasks, TaskInv label transforms sha base w task.1 task.2
  others : ∀ id, (∀ task ∈ w.tasks, task.1.id ≠ id) →
    Untouched base w id ∧ lastAttempt w id = lastAttempt base id

/-- The chunks of a document are all stored for it, so they stay where they were. -/
theorem Exact.of_untouched {doc : RawDoc} (hexact : Exact transforms base.store doc) (hu : Untouched base w doc.id) :
    Exact transforms w.store doc where
  held := fun c hc => (hu c.id _ rfl).mpr (hexact.held c hc)
  only := fun k s hs hid => hexact.only k s ((hu k s hid).mp hs) hid

theorem TaskInv.exact {doc last : RawDoc} {skipped errored : Bool} (hsettled : Settled transforms base)
    (hinv : TaskInv label transforms sha base w doc (.finished skipped errored)) (hid : last.id = doc.id)
    (hlast : lastAttempt w doc.id = some ⟨last, true⟩) : Exact transforms w.store last := by
  cases skipped with
  | true =>
    obtain ⟨hu, -, hl⟩ := hinv
    rw [← hid] at hu hl hlast
    exact (hsettled last (hl.symm.trans hlast)).of_untouched hu
  | false =>
    cases errored with
    | true => exact absurd (hinv.symm.trans hlast) (by simp)
    | false =>
      have heq : doc = last := by simpa using hinv.2.symm.trans hlast
      exact heq ▸ hinv.1

theorem finished_of_idle (hidle : w.idle = true) {task : RawDoc × Phase} (htask : task ∈ w.tasks) :
    ∃ skipped errored, task.2 = .finished skipped errored := by
  have hfinished := all_eq_true.mp hidle task htask
  generalize task.2 = phase at hfinished
  cases phase with
  | finished skipped errored => exact ⟨skipped, errored, rfl⟩
  | _ => cases hfinished

theorem Running.settled_idle (h : Running label transforms sha base w) (hidle : w.idle = true) :
    Settled transforms w := by
  intro doc hlast
  by_cases htask : ∃ task ∈ w.tasks, task.1.id = doc.id
  · obtain ⟨task, hmem, hid⟩ := htask
    obtain ⟨skipped, errored, hphase⟩ := finished_of_idle hidle hmem
    have hinv := h.tasks task hmem
    rw [hphase] at hinv
    exact hinv.exact h.settled hid.symm (hid ▸ hlast)
  · obtain ⟨hu, hl⟩ := h.others doc.id fun task hmem hid => htask ⟨task, hmem, hid⟩
    exact (h.settled doc (hl.symm.trans hlast)).of_untouched hu

theorem Running.converged (h : Running label transforms sha base w) : Converged transforms w := by
  intro hidle herrors task hmem
  obtain ⟨skipped, errored, hphase⟩ := finished_of_idle hidle hmem
  have hclean : errored = false := by
    have hnone := countP_eq_zero.mp herrors task hmem
    rw [hphase] at hnone
    simpa [Phase.isErrored] using hnone
  have hinv := h.tasks task hmem
  rw [hphase, hclean] at hinv
  have hlast : lastAttempt w task.1.id = some ⟨task.1, true⟩ := by
    cases skipped with
    | true =>
      obtain ⟨-, hseen, hl⟩ := hinv
      exact hl.trans (h.manageable.latest task.1 (mem_map_of_mem hmem) hseen)
    | false => exact hinv.2
  exact hinv.exact h.settled rfl hlast

theorem Running.start {docs : List RawDoc} (h : Running label transforms sha base w)
    (hm : Manageable label transforms sha w docs)
    (hstep : ingestStep (replaceArgs label transforms) sha w (.runSource docs) = some next) :
    Running label transforms sha w next := by
  rw [ingestStep] at hstep
  split at hstep
  case isTrue hguard =>
    cases hstep
    have hfst : (docs.map fun doc => (doc, Phase.fetched)).map Prod.fst = docs := by simp [Function.comp_def]
    refine ⟨h.settled_idle hguard.1, ?_, ?_, ?_, fun id _ => ⟨fun k s _ => Iff.rfl, rfl⟩⟩
    · rw [hfst]
      exact hm
    · simpa [Function.comp_def] using hguard.2
    intro task htask
    obtain ⟨doc, -, rfl⟩ := mem_map.mp htask
    exact ⟨fun k s _ => Iff.rfl, ⟨rfl, rfl⟩, rfl⟩
  case isFalse => cases hstep

theorem map_fst_set {α β : Type} {l : List (α × β)} {i : Nat} {a : α} {b b' : β} (h : l[i]? = some (a, b)) :
    (l.set i (a, b')).map Prod.fst = l.map Prod.fst := by
  apply ext_getElem?
  intro j
  rw [getElem?_map, getElem?_set, getElem?_map]
  by_cases hij : i = j
  · subst hij
    have hlt : i < l.length := (List.getElem?_eq_some_iff.mp h).1
    rw [if_pos rfl, if_pos hlt, h]
    rfl
  · simp [hij]

/-- A task of the run after a step of the task at `index`: that one, or one of another document. -/
theorem mem_set_cases {tasks : List (RawDoc × Phase)} {index : Nat} {doc : RawDoc} {phase phase' : Phase}
    (hdistinct : (tasks.map fun task => task.1.id).Nodup) (hat : tasks[index]? = some (doc, phase))
    {task : RawDoc × Phase} (hmem : task ∈ tasks.set index (doc, phase')) :
    task = (doc, phase') ∨ task ∈ tasks ∧ task.1.id ≠ doc.id := by
  obtain ⟨j, hj⟩ := mem_iff_getElem?.mp hmem
  rw [getElem?_set] at hj
  have hlt : index < tasks.length := (List.getElem?_eq_some_iff.mp hat).1
  by_cases hij : index = j
  · simp only [hij, if_true] at hj
    rw [if_pos (hij ▸ hlt)] at hj
    exact .inl (Option.some.inj hj).symm
  rw [if_neg hij] at hj
  refine .inr ⟨mem_of_getElem? hj, fun hid => hij ?_⟩
  apply (getElem?_inj (by simpa using hlt) hdistinct).mp
  rw [getElem?_map, getElem?_map, hat, hj]
  simp [hid]

theorem TaskInv.with_tasks {doc : RawDoc} {phase : Phase} (tasks : List (RawDoc × Phase))
    (h : TaskInv label transforms sha base w doc phase) :
    TaskInv label transforms sha base { w with tasks } doc phase := by
  cases phase with
  | finished skipped errored => cases skipped <;> cases errored <;> exact h
  | storing chunks errored rest =>
    obtain ⟨hchunks, hl, done, hdone, hstoring⟩ := h
    exact ⟨hchunks, hl, done, hdone, fun herrored => ⟨(hstoring herrored).held, (hstoring herrored).only⟩⟩
  | _ => exact h

theorem Running.task {index : Nat} {ts : List Nat} {answer : Answer} (h : Running label transforms sha base w)
    (hstep : ingestStep (replaceArgs label transforms) sha w (.task index ts answer) = some next) :
    Running label transforms sha base next := by
  rw [ingestStep] at hstep
  cases hat : w.tasks[index]? with
  | none => simp [hat] at hstep
  | some task =>
    obtain ⟨doc, phase⟩ := task
    rw [hat] at hstep
    cases hprocess : processDoc (replaceArgs label transforms) sha w ts doc answer phase with
    | none => simp [hprocess] at hstep
    | some result =>
      obtain ⟨mid, phase'⟩ := result
      simp only [hprocess, Option.some.injEq] at hstep
      subst hstep
      have hmem : (doc, phase) ∈ w.tasks := mem_of_getElem? hat
      have hdoc : doc ∈ w.tasks.map Prod.fst := mem_map_of_mem hmem
      obtain ⟨heffect, hown⟩ := (h.tasks _ hmem).own h.manageable hdoc hprocess
      have hfst : (w.tasks.set index (doc, phase')).map Prod.fst = w.tasks.map Prod.fst := map_fst_set hat
      have hids : (w.tasks.set index (doc, phase')).map (fun task => task.1.id) =
          w.tasks.map (fun task => task.1.id) := by
        simpa [Function.comp_def] using congrArg (List.map RawDoc.id) hfst
      constructor
      case settled => exact h.settled
      case manageable =>
        rw [hfst]
        exact h.manageable
      case distinct =>
        rw [hids]
        exact h.distinct
      case tasks =>
        intro task htask
        rcases mem_set_cases h.distinct hat htask with rfl | ⟨hold, hne⟩
        · exact hown.with_tasks _
        · have hother := (h.tasks task hold).other h.manageable heffect hdoc (mem_map_of_mem hold) hne
          exact hother.with_tasks _
      case others =>
        intro id hid
        have hnot : id ∉ w.tasks.map fun task => task.1.id := by
          rw [← hids]
          intro hmem
          obtain ⟨task, htask, heq⟩ := mem_map.mp hmem
          exact hid task htask heq
        have hother : ∀ task ∈ w.tasks, task.1.id ≠ id := fun task htask heq =>
          hnot (mem_map.mpr ⟨task, htask, heq⟩)
        obtain ⟨hu, hl⟩ := h.others id hother
        have hne : id ≠ doc.id := fun heq => hother _ hmem heq.symm
        exact ⟨heffect.untouched_other hne (fun k hk => (h.manageable.separate doc hdoc k hk).1) hu,
          (heffect.lastAttempt_other hne).trans hl⟩

theorem Running.empty : Running label transforms sha {} {} where
  settled := nofun
  manageable := ⟨nofun, nofun, nofun⟩
  distinct := nodup_nil
  tasks := nofun
  others := fun _ _ => ⟨fun _ _ _ => Iff.rfl, rfl⟩

end

section

/-- The digests of the texts `A` and `B`. -/
def sampleSha : Sha256 where
  hex content :=
    if content = units "A" then units "559aead08264d5795d3909718cdd05abd49572e84fe55590eef31a88a08fdffd"
    else units "df7e70e5021544f4834bbee64a9e3789febc4be81470df629cad6ddb03320a5c"
  length content := by
    split <;> decide +kernel

def sampleVersion (content : String) : RawDoc := ⟨units "a.md", units content⟩

/-- A run of the one document through all its steps. -/
def sampleRun (content : String) : List IngestAction :=
  .runSource [sampleVersion content] :: List.replicate 4 (.task 0 (units "2026-01-01T00:00:00.000Z") .ok)

abbrev sampleStep : IngestWorld → IngestAction → Option IngestWorld :=
  ingestStep (replaceArgs (units "docs:0:filesystem") []) sampleSha

/-- The document is changed, and then changed back. -/
def revertingRuns : List IngestAction :=
  sampleRun "A" ++ sampleRun "B" ++ [.runSource [sampleVersion "A"], .task 0 (units "2026-01-03T00:00:00.000Z") .ok]

end

end llamactl.rag
