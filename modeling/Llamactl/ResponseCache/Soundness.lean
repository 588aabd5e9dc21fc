import Llamactl.ResponseCache.Proxy

open collections effect js List Option

namespace llamactl.responsecache

/-! What is served from the cache: the answer of a request of the same identity, in the
shape in which the upstream's answer would have reached the client. -/

inductive Framing where
  | json
  | sse
  | other
  deriving DecidableEq

structure Shape where
  status : Nat
  framing : Framing
  format : ProtocolVariant
  deriving DecidableEq

def framing (contentType : Option String) : Framing :=
  if isJsonContentType contentType then .json else if isEventStream contentType then .sse else .other

def Response.shape (response : Response) : Shape := ⟨response.status, framing response.contentType, response.body.format⟩

def ProxyContext.onOmlx (context : ProxyContext) : Bool := context.route.any fun route => route.engine = .omlx

theorem isJson_application_json : isJsonContentType (some "application/json") = true := by decide +kernel

theorem framing_application_json : framing (some "application/json") = .json := by decide +kernel

theorem isJson_getD (contentType : Option String) :
    isJsonContentType (some (contentType.getD "")) = isJsonContentType contentType := by
  cases contentType with
  | none => decide +kernel
  | some text => rfl

theorem framing_getD (contentType : Option String) : framing (some (contentType.getD "")) = framing contentType := by
  cases contentType with
  | none => decide +kernel
  | some text => rfl

section

variable {sha1 : List Nat → String} {context : ProxyContext} {prepared : Prepared}

theorem isBool_iff {key : String} {value : Bool} {parsed : Json} :
    isBool key value parsed = true ↔ parsed.get? key = some (.bool value) := by
  unfold isBool
  split
  · rename_i actual hactual
    simp [hactual]
  rename_i hnone
  simp only [Bool.false_eq_true, false_iff]
  exact hnone value

theorem get?_setProperty {key : String} {value parsed : Json} (hobject : ∃ fields, parsed = .obj fields) :
    (setProperty key value parsed).get? key = some value := by
  obtain ⟨fields, rfl⟩ := hobject
  rw [setProperty, get?_obj, property_append, if_pos rfl]

theorem object_of_requestModel {parsed : Json} {model : List Nat} (hmodel : requestModel parsed = some model) :
    ∃ fields, parsed = .obj fields := by
  cases parsed with
  | obj fields => exact ⟨fields, rfl⟩
  | _ => cases hmodel

theorem prepareLookup_spec (hprepared : prepareLookup sha1 context = some prepared) :
    prepared.responseCache.sha = sha1 (canonicalBody prepared.bodyText) ∧
      prepared.responseCache.protocolVariant = context.protocol ∧
      ∃ body, parse prepared.bodyText = some body ∧
        isBool "stream" true body = (prepared.clientRequestedStream && !context.onOmlx) := by
  unfold prepareLookup at hprepared
  split at hprepared
  · cases hprepared
  split at hprepared
  · rename_i route text hroute htext
    split at hprepared
    · rename_i workloadEpoch parsed hepoch hparse
      split at hprepared
      · cases hprepared
      rename_i model hmodel
      split at hprepared
      · cases hprepared
      rename_i huses
      cases hprepared
      refine ⟨rfl, rfl, ?_⟩
      have homlx : context.onOmlx = decide (route.engine = .omlx) := by
        unfold ProxyContext.onOmlx
        rw [hroute]
        rfl
      have heligible : isRouteKvEligible route = true := by
        simp only [Bool.or_eq_true, not_or, Bool.not_eq_true', Bool.not_eq_false] at huses
        exact huses.1.1.1
      dsimp only
      split
      · rename_i hnormalizes
        simp only [Bool.and_eq_true, decide_eq_true_eq] at hnormalizes
        refine ⟨_, parse_stringifyValue _, ?_⟩
        have hstream : (serialized (setProperty "stream" (.bool false) parsed)).get? "stream" = some (.bool false) := by
          rw [get?_serialized, get?_setProperty (object_of_requestModel hmodel), map_some, serialized]
        unfold isBool
        rw [hstream, homlx]
        simp [hnormalizes.1.2]
      rename_i hkept
      refine ⟨parsed, hparse, ?_⟩
      rw [homlx]
      by_cases hengine : route.engine = .omlx
      · have hkind : route.kind = .modelHost := by
          unfold isRouteKvEligible at heligible
          simpa [hengine] using heligible
        have hstream : isBool "stream" false parsed = true := by simpa [hengine, hkind] using hkept
        rw [isBool_iff] at hstream
        unfold isBool
        rw [hstream]
        simp [hengine]
      · simp [hengine]
    · cases hprepared
  · cases hprepared

end

section

variable {context first second : ProxyContext} {translators : Translators} {upstream : Response} {now : Int}

/-- The part of the synthesis that is about the answer. -/
def completionOf (upstream : Response) : Option Json :=
  if upstream.status ≠ 200 || !isJsonContentType upstream.contentType then none
  else (parse upstream.body.text).filter fun json => (nonNull (json.get? "error")).isNone

theorem synthesizable_openai (hprotocol : context.protocol = .openai) (streams : Bool) (upstream : Response) :
    synthesizable context streams upstream = if streams then completionOf upstream else none := by
  unfold synthesizable completionOf ProxyContext.isAnthropic ProxyContext.isResponsesApi
  rw [hprotocol]
  cases streams with
  | true => simp
  | false => simp

theorem synthesizable_other (hprotocol : context.protocol ≠ .openai) (streams : Bool) (upstream : Response) :
    synthesizable context streams upstream = none := by
  unfold synthesizable ProxyContext.isAnthropic ProxyContext.isResponsesApi
  cases hactual : context.protocol with
  | openai => exact absurd hactual hprotocol
  | anthropic => simp
  | responses => simp

theorem maybeTranslateResponse_shape (hprotocol : first.protocol = second.protocol) :
    (maybeTranslateResponse first translators upstream).shape = (maybeTranslateResponse second translators upstream).shape := by
  unfold maybeTranslateResponse ProxyContext.isAnthropic ProxyContext.isResponsesApi
  rw [hprotocol]
  dsimp only
  split
  · rfl
  split
  · rfl
  split
  · rfl
  split
  · rfl
  · rfl

theorem maybeTranslateResponse_openai (hprotocol : context.protocol = .openai) :
    maybeTranslateResponse context translators upstream = { upstream with completed := false } := by
  unfold maybeTranslateResponse ProxyContext.isAnthropic ProxyContext.isResponsesApi
  rw [hprotocol]
  simp

variable {config : ResponseCacheConfig} {responseCache : ResponseCacheRequestState} {canonical : Option (List Nat)}
  {entry : ResponseCacheEntry}

/-- Only a successful answer is stored, under the key of the request. -/
theorem entryToPersist_spec (hentry : entryToPersist config context responseCache canonical upstream now = some entry) :
    upstream.status = 200 ∧ entry.statusCode = 200 ∧ entry.createdAt = now ∧
      entry.toResponseCacheLookup = responseCache.toResponseCacheLookup ∧
      entry.contentType = (if canonical.isSome then "application/json" else upstream.contentType.getD "") ∧
      entry.responseBody = canonical.elim upstream.body fun text => ⟨text, .openai⟩ := by
  have hstored : ∀ {skipped big partialSse envelope : Prop} [Decidable skipped] [Decidable big] [Decidable partialSse]
      [Decidable envelope] {stored : ResponseCacheEntry},
      (if skipped then none else if envelope then none else if partialSse then none else if big then none else some stored) =
        some entry → ¬skipped ∧ stored = entry := by
    intro skipped big partialSse envelope _ _ _ _ stored hsome
    simp only [ite_eq_iff, reduceCtorEq, and_false, false_or, Option.some.injEq] at hsome
    exact ⟨hsome.1, hsome.2.2.2.2⟩
  unfold entryToPersist at hentry
  cases canonical with
  | none =>
    obtain ⟨hskips, rfl⟩ := hstored hentry
    simp only [Bool.or_eq_true, decide_eq_true_eq, not_or, not_not] at hskips
    exact ⟨hskips.1, hskips.1, rfl, rfl, rfl, rfl⟩
  | some text =>
    obtain ⟨hskips, rfl⟩ := hstored hentry
    simp only [Bool.or_eq_true, decide_eq_true_eq, not_or, not_not] at hskips
    exact ⟨hskips.1, hskips.1, rfl, rfl, rfl, rfl⟩

/-- The response that a row gives when nothing is made of it. -/
def cachedBody (entry : ResponseCacheEntry) : Response :=
  { status := entry.statusCode, contentType := some entry.contentType, body := entry.responseBody }

theorem cacheHitResponse_eq (streams : Bool) :
    cacheHitResponse context streams now entry =
      if context.onOmlx then (maybeSynthesizeOmlxSseResponse context streams now (cachedBody entry)).getD (cachedBody entry)
      else cachedBody entry := rfl

theorem hit_shape_other {streams streams' : Bool} {stored : Int} (hprotocol : first.protocol = second.protocol)
    (hother : second.protocol ≠ .openai)
    (hentry : entryToPersist config first responseCache (responseCacheCanonicalBody first streams' upstream)
      (answer first streams' translators stored upstream) stored = some entry) :
    (cacheHitResponse second streams now entry).shape = (answer second streams translators now upstream).shape := by
  have hfirst : first.protocol ≠ .openai := hprotocol ▸ hother
  have hanswer : ∀ {context : ProxyContext} {streams : Bool} {now : Int}, context.protocol ≠ .openai →
      answer context streams translators now upstream = maybeTranslateResponse context translators upstream := by
    intro context streams now hcontext
    unfold answer maybeSynthesizeOmlxSseResponse
    rw [synthesizable_other hcontext]
    rfl
  have hcanonical : responseCacheCanonicalBody first streams' upstream = none := by
    unfold responseCacheCanonicalBody
    rw [synthesizable_other hfirst]
    split
    · rfl
    · rfl
  have hhit : cacheHitResponse second streams now entry = cachedBody entry := by
    rw [cacheHitResponse_eq]
    unfold maybeSynthesizeOmlxSseResponse
    rw [synthesizable_other hother]
    split
    · rfl
    · rfl
  rw [hcanonical, hanswer hfirst] at hentry
  obtain ⟨hstatus, hcode, -, -, htype, hbody⟩ := entryToPersist_spec hentry
  rw [hhit, hanswer hother, ← maybeTranslateResponse_shape hprotocol]
  unfold Response.shape cachedBody
  rw [hcode, hstatus, htype, hbody]
  simp [framing_getD]

theorem completionOf_cachedBody (hcode : entry.statusCode = upstream.status)
    (htype : entry.contentType = upstream.contentType.getD "") (hbody : entry.responseBody = upstream.body) :
    completionOf (cachedBody entry) = completionOf upstream := by
  unfold completionOf cachedBody
  rw [hcode, htype, hbody, isJson_getD]

theorem completionOf_canonical {json : Json} (hcompletion : completionOf upstream = some json) (hcode : entry.statusCode = 200)
    (htype : entry.contentType = "application/json") (hbody : entry.responseBody = ⟨stringifyValue json, .openai⟩) :
    (completionOf (cachedBody entry)).isSome = true := by
  have herror : (nonNull (json.get? "error")).isNone = true := by
    unfold completionOf at hcompletion
    split at hcompletion
    · cases hcompletion
    · exact (filter_eq_some_iff.mp hcompletion).2
  have hread : (nonNull ((serialized json).get? "error")).isNone = true := by
    rw [get?_serialized]
    cases hget : json.get? "error" with
    | none => rfl
    | some value =>
      rw [hget] at herror
      cases value with
      | null => rw [map_some, serialized]; rfl
      | _ => cases herror
  unfold completionOf cachedBody
  simp [hcode, htype, hbody, isJson_application_json, parse_stringifyValue, hread]

theorem completionOf_json {json : Json} (hcompletion : completionOf upstream = some json) :
    upstream.status = 200 ∧ framing upstream.contentType = .json := by
  unfold completionOf at hcompletion
  split at hcompletion
  · cases hcompletion
  rename_i hjson
  simp only [Bool.or_eq_true, decide_eq_true_eq, Bool.not_eq_true', not_or, not_not, Bool.not_eq_false] at hjson
  refine ⟨hjson.1, ?_⟩
  unfold framing
  rw [hjson.2, if_pos rfl]

theorem answer_openai (hprotocol : context.protocol = .openai) (streams : Bool) (upstream : Response) :
    answer context streams translators now upstream =
      match (if streams then completionOf upstream else none) with
      | some json => { status := upstream.status, contentType := some "text/event-stream", body := ⟨jsonCompletionToSse json now, .openai⟩ }
      | none => { upstream with completed := false } := by
  unfold answer maybeSynthesizeOmlxSseResponse
  rw [synthesizable_openai hprotocol, maybeTranslateResponse_openai hprotocol]
  cases (if streams then completionOf upstream else none) with
  | some json => rfl
  | none => rfl

/-- The OpenAI protocol. `hstreams` says that the two forwarded bodies ask alike for a
stream, which is what their one canonical text gives. -/
theorem hit_shape_openai {streams streams' : Bool} {stored : Int} (hfirst : first.protocol = .openai)
    (hsecond : second.protocol = .openai) (hformat : upstream.body.format = .openai)
    (hstreams : (streams' && !first.onOmlx) = (streams && !second.onOmlx))
    (hentry : entryToPersist config first responseCache (responseCacheCanonicalBody first streams' upstream)
      (answer first streams' translators stored upstream) stored = some entry) :
    (cacheHitResponse second streams now entry).shape = (answer second streams translators now upstream).shape := by
  have hcanonical : responseCacheCanonicalBody first streams' upstream =
      if first.onOmlx then (if streams' then completionOf upstream else none).map stringifyValue else none := by
    unfold responseCacheCanonicalBody
    rw [synthesizable_openai hfirst]
    rfl
  have hhit : cacheHitResponse second streams now entry =
      if second.onOmlx then answer second streams translators now (cachedBody entry) else cachedBody entry := by
    rw [cacheHitResponse_eq, answer_openai hsecond]
    unfold maybeSynthesizeOmlxSseResponse
    rw [synthesizable_openai hsecond]
    cases (if streams then completionOf (cachedBody entry) else none) with
    | none => rfl
    | some json => rfl
  rw [hcanonical, answer_openai hfirst] at hentry
  rw [hhit]
  cases hsynthesized : (if streams' then completionOf upstream else none) with
  | none =>
    -- The answer was stored as it came.
    rw [hsynthesized] at hentry
    have hnone : (if first.onOmlx then Option.map stringifyValue none else none) = none := by
      split
      · rfl
      · rfl
    rw [hnone] at hentry
    obtain ⟨hstatus, hcode, -, -, htype, hbody⟩ := entryToPersist_spec hentry
    have htype : entry.contentType = upstream.contentType.getD "" := htype
    have hbody : entry.responseBody = upstream.body := hbody
    have hsame : completionOf (cachedBody entry) = completionOf upstream :=
      completionOf_cachedBody (hcode.trans hstatus.symm) htype hbody
    have hshape : (cachedBody entry).shape = upstream.shape := by
      unfold Response.shape cachedBody
      dsimp only
      rw [hcode, htype, hbody, framing_getD, hstatus]
    split
    · rw [answer_openai hsecond, answer_openai hsecond, hsame]
      split
      · unfold Response.shape cachedBody
        rw [hcode, hstatus]
      · exact hshape
    rename_i homlx
    have hplain : (if streams then completionOf upstream else none) = none := by
      cases streams with
      | false => rfl
      | true =>
        simp only [Bool.not_eq_true] at homlx
        rw [homlx] at hstreams
        cases streams' with
        | false => cases hstreams
        | true => exact hsynthesized
    rw [answer_openai hsecond, hplain]
    exact hshape
  | some json =>
    have hasked : streams' = true ∧ completionOf upstream = some json := by
      cases streams' with
      | false => cases hsynthesized
      | true => exact ⟨rfl, hsynthesized⟩
    obtain ⟨rfl, hcompletion⟩ := hasked
    obtain ⟨hstatus, hframing⟩ := completionOf_json hcompletion
    rw [hsynthesized] at hentry
    cases homlx : first.onOmlx with
    | true =>
      -- The JSON completion was stored, and nobody's stream reached the upstream.
      rw [homlx, if_pos rfl, map_some] at hentry
      obtain ⟨-, hcode, -, -, htype, hbody⟩ := entryToPersist_spec hentry
      have htype : entry.contentType = "application/json" := htype
      have hbody : entry.responseBody = ⟨stringifyValue json, .openai⟩ := hbody
      have hjson : (cachedBody entry).shape = ⟨200, .json, .openai⟩ := by
        unfold Response.shape cachedBody
        rw [hcode, htype, hbody, framing_application_json]
      have hupstream : upstream.shape = ⟨200, .json, .openai⟩ := by
        unfold Response.shape
        rw [hstatus, hframing, hformat]
      obtain ⟨read, hread⟩ := isSome_iff_exists.mp (completionOf_canonical hcompletion hcode htype hbody)
      rw [homlx] at hstreams
      cases streams with
      | false =>
        rw [answer_openai hsecond, answer_openai hsecond]
        split
        · exact hjson.trans hupstream.symm
        · exact hjson.trans hupstream.symm
      | true =>
        have hsecondOmlx : second.onOmlx = true := by simpa using hstreams.symm
        rw [hsecondOmlx, if_pos rfl, answer_openai hsecond, answer_openai hsecond, if_pos rfl, if_pos rfl, hcompletion, hread]
        unfold Response.shape cachedBody
        rw [hcode, hstatus]
    | false =>
      -- The events were stored, and the other request asks the upstream for a stream too.
      rw [homlx, if_neg Bool.false_ne_true] at hentry
      obtain ⟨-, hcode, -, -, htype, hbody⟩ := entryToPersist_spec hentry
      rw [homlx] at hstreams
      have hsecondStreams : streams = true ∧ second.onOmlx = false := by simpa using hstreams.symm
      obtain ⟨rfl, hsecondOmlx⟩ := hsecondStreams
      rw [hsecondOmlx, if_neg Bool.false_ne_true, answer_openai hsecond, if_pos rfl, hcompletion]
      unfold Response.shape cachedBody
      rw [hcode, htype, hbody, hstatus]
      rfl

end

/-- An answer of the run that was stored for a request of the same identity, within its
time, and what is served of it has the shape in which the upstream's answer would have
been passed on. -/
structure ServedFrom (config : ResponseCacheConfig) (first : Stored) (second : ProxyContext) (prepared : Prepared) (now : Int)
    (response : Response) : Prop where
  body : canonicalBody first.prepared.bodyText = canonicalBody prepared.bodyText
  model : first.prepared.responseCache.model = prepared.responseCache.model
  workload : first.prepared.responseCache.workload = prepared.responseCache.workload
  workloadEpoch : first.prepared.responseCache.workloadEpoch = prepared.responseCache.workloadEpoch
  protocolVariant : first.prepared.responseCache.protocolVariant = prepared.responseCache.protocolVariant
  fresh : now - first.entry.createdAt ≤ config.responseCacheTtlMs
  stored : response = cacheHitResponse second prepared.clientRequestedStream now first.entry
  shape : response.shape = (answer second prepared.clientRequestedStream config.translators now first.upstream).shape

/-- Where the rows come from. -/
structure Traced (config : ResponseCacheConfig) (cache : ResponseCache) : Prop where
  forwarded : ∀ request ∈ cache.forwarded, prepareLookup config.sha1 request.context = some request.prepared
  stored : ∀ first ∈ cache.stored, prepareLookup config.sha1 first.context = some first.prepared ∧
    first.upstream.body.format = .openai ∧
      entryFor config first.context first.prepared first.upstream first.entry.createdAt = some first.entry
  rows : ∀ row ∈ cache.db.rows, ∃ first ∈ cache.stored, row.SameAs first.entry

section

variable {config : ResponseCacheConfig} {cache after : ResponseCache} {action : Action}

theorem ResponseCacheEntry.SameAs.of_sameAs {row old entry : ResponseCacheEntry} (hrow : row.SameAs old) (hold : old.SameAs entry) :
    row.SameAs entry := by
  unfold SameAs at hrow hold ⊢
  rw [hold] at hrow
  exact hrow

theorem lookup_rows {context : ProxyContext} {now : Int} {throws : Bool} {refused : Write → Bool} {row : ResponseCacheEntry}
    (hrow : row ∈ (maybeResponseCacheLookup config cache.db context now throws refused).1.rows) :
    ∃ old ∈ cache.db.rows, row.SameAs old := by
  have hkept : row ∈ cache.db.rows → ∃ old ∈ cache.db.rows, row.SameAs old := fun hold => ⟨row, hold, rfl⟩
  unfold maybeResponseCacheLookup at hrow
  split at hrow
  · exact hkept hrow
  dsimp only at hrow
  split at hrow
  · exact hkept hrow
  split at hrow
  · exact hkept hrow
  split at hrow
  · dsimp only at hrow
    split at hrow
    · exact hkept hrow
    · exact hkept (ResponseCacheRegistry.mem_tryDelete hrow)
  dsimp only at hrow
  split at hrow
  · exact hkept hrow
  · exact ResponseCacheRegistry.mem_bumpHit hrow

theorem lookup_prepared {context : ProxyContext} {now : Int} {throws : Bool} {refused : Write → Bool} {prepared : Prepared}
    (hmissed : (maybeResponseCacheLookup config cache.db context now throws refused).2 = .missed prepared) :
    prepareLookup config.sha1 context = some prepared := by
  unfold maybeResponseCacheLookup at hmissed
  split at hmissed
  · cases hmissed
  rename_i actual hprepared
  rw [hprepared]
  dsimp only at hmissed
  split at hmissed
  · cases hmissed
    rfl
  split at hmissed
  · cases hmissed
    rfl
  split at hmissed
  · cases hmissed
    rfl
  · cases hmissed

theorem step_traced (htraced : Traced config cache) (hstep : step config cache action = some after) : Traced config after := by
  cases action with
  | arrive context now throws refused =>
    have hrows : ∀ row ∈ (maybeResponseCacheLookup config cache.db context now throws refused).1.rows,
        ∃ first ∈ cache.stored, row.SameAs first.entry := by
      intro row hrow
      obtain ⟨old, hold, hsame⟩ := lookup_rows hrow
      obtain ⟨first, hfirst, hentry⟩ := htraced.rows old hold
      exact ⟨first, hfirst, hsame.of_sameAs hentry⟩
    unfold step at hstep
    dsimp only at hstep
    split at hstep
    · rename_i prepared hmissed
      cases hstep
      refine ⟨fun request hrequest => ?_, htraced.stored, hrows⟩
      rcases mem_append.mp hrequest with hold | hnew
      · exact htraced.forwarded request hold
      · rw [mem_singleton.mp hnew]
        exact lookup_prepared hmissed
    · cases hstep
      exact ⟨htraced.forwarded, htraced.stored, hrows⟩
  | answered request upstream now refused outranks evictionThrows =>
    unfold step at hstep
    dsimp only at hstep
    split at hstep
    · cases hstep
    rename_i forwarded hforwarded
    have hprepared := htraced.forwarded forwarded (mem_of_getElem? hforwarded)
    have hrest : ∀ other ∈ cache.forwarded.eraseIdx request, prepareLookup config.sha1 other.context = some other.prepared :=
      fun other hother => htraced.forwarded other (mem_of_mem_eraseIdx hother)
    split at hstep
    · cases hstep
      exact ⟨hrest, htraced.stored, htraced.rows⟩
    rename_i entry hentry
    split at hstep
    · cases hstep
      exact ⟨hrest, htraced.stored, htraced.rows⟩
    cases hstep
    have hcreated : entry.createdAt = now := (entryToPersist_spec hentry).2.2.1
    have hinserted : ∀ row ∈ (ResponseCacheRegistry.insert cache.db entry).rows,
        ∃ first ∈ { forwarded with upstream := fromUpstream upstream, entry } :: cache.stored, row.SameAs first.entry := by
      intro row hrow
      rcases ResponseCacheRegistry.mem_insert hrow with rfl | hold
      · exact ⟨_, mem_cons_self, rfl⟩
      · obtain ⟨first, hfirst, hsame⟩ := htraced.rows row hold
        exact ⟨first, mem_cons_of_mem _ hfirst, hsame⟩
    refine ⟨hrest, fun first hfirst => ?_, fun row hrow => ?_⟩
    · rcases mem_cons.mp hfirst with rfl | hold
      · refine ⟨hprepared, rfl, ?_⟩
        rw [hcreated]
        exact hentry
      · exact htraced.stored first hold
    dsimp only at hrow
    split at hrow
    · exact hinserted row hrow
    · exact hinserted row (mem_runResponseCacheEviction hrow)

/-- A request is served only the answer to one of the same canonical body, model,
workload, epoch and protocol, while it is fresh, and in the shape that the upstream's
answer would have had for the request itself. -/
theorem served_from_cache_soundly {actions : List Action} {second : ProxyContext} {prepared : Prepared} {now : Int}
    {throws : Bool} {refused : Write → Bool} {response : Response} (hrun : run (step config) {} actions = some cache)
    (hprepared : prepareLookup config.sha1 second = some prepared)
    (hsha1 : ∀ first ∈ cache.stored, config.sha1 (canonicalBody first.prepared.bodyText) =
      config.sha1 (canonicalBody prepared.bodyText) →
        canonicalBody first.prepared.bodyText = canonicalBody prepared.bodyText)
    (hserved : (maybeResponseCacheLookup config cache.db second now throws refused).2 = .served response) :
    ∃ first ∈ cache.stored, ServedFrom config first second prepared now response := by
  have hinit : Traced config {} :=
    ⟨fun _ hmem => (by cases hmem), fun _ hmem => (by cases hmem), fun _ hmem => (by cases hmem)⟩
  have htraced : Traced config cache := run_invariant_all (fun _ _ _ hbefore hstep => step_traced hbefore hstep) hinit hrun
  unfold maybeResponseCacheLookup at hserved
  rw [hprepared] at hserved
  dsimp only at hserved
  split at hserved
  · cases hserved
  split at hserved
  · cases hserved
  rename_i hit hfound
  split at hserved
  · cases hserved
  rename_i hfresh
  cases hserved
  obtain ⟨hrow, hkey⟩ := Table.find_eq_some_iff.mp hfound
  obtain ⟨first, hfirst, hsame⟩ := htraced.rows hit hrow
  obtain ⟨hfirstPrepared, hformat, hentry⟩ := htraced.stored first hfirst
  obtain ⟨-, -, -, hlookup, -⟩ := entryToPersist_spec hentry
  have hsameKey : first.prepared.responseCache.toResponseCacheLookup = prepared.responseCache.toResponseCacheLookup := by
    rw [← hlookup, ← hkey, hsame]
  have hstored : cacheHitResponse second prepared.clientRequestedStream now hit =
      cacheHitResponse second prepared.clientRequestedStream now first.entry := by
    rw [hsame]
    rfl
  obtain ⟨hfirstSha, hfirstVariant, firstBody, hfirstParse, hfirstStream⟩ := prepareLookup_spec hfirstPrepared
  obtain ⟨hsha, hvariant, secondBody, hparse, hstream⟩ := prepareLookup_spec hprepared
  have hbody := hsha1 first hfirst (by rw [← hfirstSha, ← hsha, hsameKey])
  have hprotocolVariant : first.prepared.responseCache.protocolVariant = prepared.responseCache.protocolVariant := by
    rw [hsameKey]
  have hprotocol : first.context.protocol = second.protocol := by
    rw [← hfirstVariant, ← hvariant, hprotocolVariant]
  have hstreams : (first.prepared.clientRequestedStream && !first.context.onOmlx) =
      (prepared.clientRequestedStream && !second.onOmlx) := by
    rw [← hfirstStream, ← hstream, Bool.eq_iff_iff, isBool_iff, isBool_iff]
    have hkey : units "stream" ∉ RESPONSE_CACHE_IGNORED_FIELDS := by decide +kernel
    exact ⟨get?_bool_of_canonicalBody_eq hfirstParse hparse hbody hkey,
      get?_bool_of_canonicalBody_eq hparse hfirstParse hbody.symm hkey⟩
  refine ⟨first, hfirst, ⟨hbody, by rw [hsameKey], by rw [hsameKey], by rw [hsameKey], hprotocolVariant, ?_, hstored, ?_⟩⟩
  · have hcreated : hit.createdAt = first.entry.createdAt := by rw [hsame]
    rw [← hcreated]
    exact Int.not_lt.mp hfresh
  rw [hstored]
  by_cases hopenai : second.protocol = .openai
  · exact hit_shape_openai (hprotocol.trans hopenai) hopenai hformat hstreams hentry
  · exact hit_shape_other hprotocol hopenai hentry

end

def chatRequest (body : String) : ProxyContext :=
  { bodyText := some (units body)
    route := some { kind := .modelHost, engine := .omlx, workload := "chat", model := "qwen" }
    trackedEpoch := some "e1" }

def unstreamed : ProxyContext := chatRequest "\x7b\"seed\":7,\"model\":\"qwen\"\x7d"

def streamed : ProxyContext := chatRequest "\x7b\"model\":\"qwen\",\"seed\":7,\"stream\":true\x7d"

def plainConfig : ResponseCacheConfig :=
  { sha1 := fun text => String.ofList (text.map Char.ofNat)
    translators := {
      translateOpenAIResponse := .ok
      translateOpenAIStreamToAnthropic := fun _ text => (text, true)
      translateChatCompletionToResponses := .ok
      unexpectedToken := [] } }

def emptyCompletion : Response :=
  { status := 200, contentType := some "application/json", body := ⟨units "\x7b\"choices\":[]\x7d", .openai⟩ }

def chatAnswered : List Action :=
  [.arrive unstreamed 0 false (fun _ => false), .answered 0 emptyCompletion 5 (fun _ => false) (fun _ _ => true) false]

def warmCache : ResponseCache := (run (step plainConfig) {} chatAnswered).getD {}

def CacheLookup.response? : CacheLookup → Option Response
  | .served response => some response
  | _ => none

theorem served_of_response? {found : CacheLookup} {response : Response} (hresponse : found.response? = some response) :
    found = .served response := by
  cases found with
  | served actual =>
    cases hresponse
    rfl
  | passed => cases hresponse
  | missed prepared => cases hresponse

def streamedHit : CacheLookup := (maybeResponseCacheLookup plainConfig warmCache.db streamed 9 false fun _ => false).2

theorem served_from_cache_soundly_streamed :
    ∃ prepared response, prepareLookup plainConfig.sha1 streamed = some prepared ∧ streamedHit = .served response ∧
      ∃ first ∈ warmCache.stored, ServedFrom plainConfig first streamed prepared 9 response := by
  have hrun : (run (step plainConfig) {} chatAnswered).isSome := by decide +kernel
  have hprepared : (prepareLookup plainConfig.sha1 streamed).isSome := by decide +kernel
  have hserved : streamedHit.response?.isSome := by decide +kernel
  obtain ⟨cache, hcache⟩ := isSome_iff_exists.mp hrun
  obtain ⟨prepared, hprepared⟩ := isSome_iff_exists.mp hprepared
  obtain ⟨response, hresponse⟩ := isSome_iff_exists.mp hserved
  have hwarm : warmCache = cache := by
    unfold warmCache
    rw [hcache]
    rfl
  have hsame : ∀ first ∈ warmCache.stored, ∀ found ∈ prepareLookup plainConfig.sha1 streamed,
      canonicalBody first.prepared.bodyText = canonicalBody found.bodyText := by decide +kernel
  refine ⟨prepared, response, hprepared, served_of_response? hresponse, ?_⟩
  exact served_from_cache_soundly (hwarm ▸ hcache) hprepared
    (fun first hfirst _ => hsame first hfirst prepared hprepared) (served_of_response? hresponse)

end llamactl.responsecache
