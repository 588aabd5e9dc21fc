import Llamactl.Effect.Transition
import Llamactl.ResponseCache.Registry

open collections js

namespace llamactl.responsecache

/-! The path of a proxied request through the response cache: the lookup before it is
forwarded, and what is stored of its answer. -/

inductive RouteKind where
  | modelRun
  | modelHost
  deriving DecidableEq

inductive Engine where
  | llamacpp
  | omlx
  | other
  deriving DecidableEq

structure RoutedEntry where
  kind : RouteKind
  engine : Engine
  workload : String
  model : String
  isPeer : Bool := false
  targetNodeId : Option String := none
  revision : Option String := none
  deriving DecidableEq

/-- A request behind its routing. The protocol is that of the path it came in on; a
body of another protocol is the translated one. -/
structure ProxyContext where
  protocol : ProtocolVariant := .openai
  anthropicModel : List Nat := []
  isChatCompletion : Bool := true
  bodyText : Option (List Nat)
  route : Option RoutedEntry
  /-- what `readWorkloadEpoch` reads for the route's workload -/
  trackedEpoch : Option String := none

namespace ProxyContext

def isAnthropic (context : ProxyContext) : Bool := context.protocol = .anthropic

def isResponsesApi (context : ProxyContext) : Bool := context.protocol = .responses

end ProxyContext

structure Response where
  status : Nat
  contentType : Option String
  body : ResponseBody
  /-- The stream it was translated from came to its end. -/
  completed : Bool := false
  deriving DecidableEq

/-- The translators of the two other protocols; they may throw, with a message. -/
structure Translators where
  translateOpenAIResponse : Json → Except (List Nat) Json
  translateOpenAIStreamToAnthropic : List Nat → List Nat → List Nat × Bool
  translateChatCompletionToResponses : Json → Except (List Nat) Json
  /-- the message for a body that is no JSON -/
  unexpectedToken : List Nat

structure ResponseCacheConfig where
  sha1 : List Nat → String
  translators : Translators
  responseCacheTtlMs : Int := 24 * 60 * 60 * 1000
  responseCacheBudgetBytes : Int := 1024 * 1024 * 1024
  responseCacheMaxEntryBytes : Nat := 8 * 1024 * 1024

def isJsonContentType (contentType : Option String) : Bool :=
  contentType.any fun text =>
    includesText (units text.toLower) (units "application/json") || includesText (units text.toLower) (units "+json")

def isEventStream (contentType : Option String) : Bool :=
  contentType.any fun text => (units "text/event-stream").isPrefixOf (units text.toLower)

def isRouteKvEligible (route : RoutedEntry) : Bool :=
  (route.kind = .modelRun && route.engine = .llamacpp) || (route.kind = .modelHost && route.engine = .omlx)

def responseCacheEpochForRoute (route : RoutedEntry) (trackedEpoch : Option String) : Option String :=
  if !route.isPeer then trackedEpoch
  else
    let peerRevision := match route.revision with
      | some revision => if revision = "" then "" else ":" ++ revision
      | none => ""
    some ("peer:" ++ route.targetNodeId.getD route.workload ++ ":" ++ route.model ++ peerRevision)

def isDeterministic (parsed : Json) : Bool :=
  (match parsed.get? "temperature" with
    | some (.num n) => n.double? = some 0
    | _ => false) ||
  (match parsed.get? "seed" with
    | some (.num n) => n.double?.isSome
    | _ => false)

def requestModel (parsed : Json) : Option (List Nat) :=
  match parsed.get? "model" with
  | some (.str model) => some model
  | _ => none

/-- `parsed.key === value` for a truth value. -/
def isBool (key : String) (value : Bool) (parsed : Json) : Bool :=
  match parsed.get? key with
  | some (.bool actual) => actual = value
  | _ => false

/-- `parsed.key = value` -/
def setProperty (key : String) (value : Json) : Json → Json
  | .obj fields => .obj (fields ++ [(units key, value)])
  | parsed => parsed

structure ResponseCacheRequestState extends ResponseCacheLookup where
  requestBodyBytes : Nat
  deriving DecidableEq

/-- What the lookup leaves on the context. -/
structure Prepared where
  responseCache : ResponseCacheRequestState
  bodyText : List Nat
  clientRequestedStream : Bool
  deriving DecidableEq

/-- The lookup up to the store; `none` where the request goes past the cache. On oMLX
the upstream never streams, and streaming and other callers share an entry. -/
def prepareLookup (sha1 : List Nat → String) (context : ProxyContext) : Option Prepared :=
  if !context.isChatCompletion then none
  else
    match context.route, context.bodyText with
    | some route, some text =>
      match responseCacheEpochForRoute route context.trackedEpoch, parse text with
      | some workloadEpoch, some parsed =>
        match requestModel parsed with
        | none => none
        | some model =>
          if !isRouteKvEligible route || workloadEpoch = "" || !isDeterministic parsed || model.isEmpty then none
          else
            let bodyText :=
              if route.kind = .modelHost && route.engine = .omlx && !isBool "stream" false parsed then
                stringifyValue (setProperty "stream" (.bool false) parsed)
              else text
            some {
              responseCache := {
                sha := canonicalRequestSha sha1 bodyText
                model
                workload := route.workload
                workloadEpoch
                protocolVariant := context.protocol
                requestBodyBytes := byteLength bodyText }
              bodyText
              clientRequestedStream := isBool "stream" true parsed }
      | _, _ => none
    | _, _ => none

/-! The conversion of a JSON completion into events. -/

/-- `data: {...}` and the blank line -/
def dataLine (payload : List Nat) : List Nat := units "data: " ++ payload ++ units "\n\n"

def textOr (default : String) : Option Json → List Nat
  | some (.str text) => text
  | _ => units default

def numberOr (default : Nat) : Option Json → Json
  | some (.num n) => .num n
  | _ => .num (Numeral.ofNat default)

def recordOr : Option Json → Json
  | some (.obj fields) => .obj fields
  | _ => .obj []

def chunkJson (completion : Json) (now : Int) (choices : List Json) (usage : Option Json) : Json :=
  .obj ([(units "id", .str (textOr "chatcmpl-stream" (completion.get? "id"))),
    (units "object", .str (units "chat.completion.chunk")),
    (units "created", numberOr (now / 1000).toNat (completion.get? "created")),
    (units "model", .str (textOr "unknown" (completion.get? "model"))),
    (units "choices", .arr choices)] ++ usage.toList.map fun value => (units "usage", value))

def buildChoiceDelta (message : Json) (content : List Nat) : Json :=
  .obj ((units "role", .str (textOr "assistant" (message.get? "role"))) ::
    (if content.isEmpty then [] else [(units "content", .str content)]) ++
    match message.get? "tool_calls" with
    | some (.arr calls) => [(units "tool_calls", .arr calls)]
    | _ => [])

def chunksForChoice (completion : Json) (now : Int) (choice : Json) (fallbackIndex : Nat) : List Nat :=
  match choice with
  | .obj _ =>
    let index := numberOr fallbackIndex (choice.get? "index")
    let message := recordOr (choice.get? "message")
    let content := textOr "" (message.get? "content")
    let chunk (delta finishReason : Json) : List Nat :=
      dataLine (stringifyValue (chunkJson completion now
        [.obj [(units "index", index), (units "delta", delta), (units "finish_reason", finishReason)]] none))
    chunk (buildChoiceDelta message content) .null ++
      chunk (.obj []) (.str (textOr "stop" (choice.get? "finish_reason")))
  | _ => []

def jsonCompletionToSse (json : Json) (now : Int) : List Nat :=
  let completion := recordOr (some json)
  let rawChoices := match completion.get? "choices" with
    | some (.arr choices) => choices
    | _ => []
  (if rawChoices.isEmpty then dataLine (stringifyValue (chunkJson completion now [] none)) else []) ++
    rawChoices.zipIdx.flatMap (fun (choice, i) => chunksForChoice completion now choice i) ++
    (match nonNull (completion.get? "usage") with
      | some usage => dataLine (stringifyValue (chunkJson completion now [] (some usage)))
      | none => []) ++
    units "data: [DONE]\n\n"

section

variable (context : ProxyContext) (clientRequestedStream : Bool)

/-- The completion that is turned into events: a JSON answer to a client that asked for
a stream, which is no error. -/
def synthesizable (upstream : Response) : Option Json :=
  if !clientRequestedStream || context.isAnthropic || context.isResponsesApi || upstream.status ≠ 200 ||
      !isJsonContentType upstream.contentType then none
  else (parse upstream.body.text).filter fun json => (nonNull (json.get? "error")).isNone

def maybeSynthesizeOmlxSseResponse (now : Int) (upstream : Response) : Option Response :=
  (synthesizable context clientRequestedStream upstream).map fun json =>
    { status := upstream.status
      contentType := some "text/event-stream"
      body := ⟨jsonCompletionToSse json now, .openai⟩ }

/-- `responseCacheCanonicalBody`, set by the synthesis. -/
def responseCacheCanonicalBody (upstream : Response) : Option (List Nat) :=
  if context.route.any fun route => route.engine = .omlx then
    (synthesizable context clientRequestedStream upstream).map stringifyValue
  else none

variable (translators : Translators)

def translationError (status : Nat) (message : List Nat) (type : String) (format : ProtocolVariant) : Response :=
  { status
    contentType := some "application/json"
    body := ⟨stringifyValue (.obj [(units "error", .obj [(units "message", .str message), (units "type", .str (units type))])]),
      format⟩ }

def translateAnthropicSseResponse (upstream : Response) : Response :=
  let (events, completed) := translators.translateOpenAIStreamToAnthropic context.anthropicModel upstream.body.text
  { status := upstream.status, contentType := some "text/event-stream", body := ⟨events, .anthropic⟩, completed }

/-- A JSON answer in the client's protocol, or an error when it cannot be translated. -/
def translateJsonResponse (translate : Json → Except (List Nat) Json) (type : String) (format : ProtocolVariant)
    (upstream : Response) : Response :=
  let translated : Except (List Nat) Json := match parse upstream.body.text with
    | none => .error translators.unexpectedToken
    | some json => translate json
  match translated with
  | .ok json => { status := upstream.status, contentType := upstream.contentType, body := ⟨stringifyValue json, format⟩ }
  | .error message => translationError 502 message type format

def translateAnthropicJsonResponse (upstream : Response) : Response :=
  translateJsonResponse translators translators.translateOpenAIResponse "anthropic_response_translation_error" .anthropic upstream

def translateResponsesJsonResponse (upstream : Response) : Response :=
  translateJsonResponse translators translators.translateChatCompletionToResponses "responses_response_translation_error"
    .responses upstream

def translateResponsesSseResponse : Response :=
  translationError 501 (units "streaming is not supported for /v1/responses") "responses_translation_error" .responses

def maybeTranslateResponse (upstream : Response) : Response :=
  let ok := 200 ≤ upstream.status && upstream.status < 300
  if context.isAnthropic && isEventStream upstream.contentType then translateAnthropicSseResponse context translators upstream
  else if context.isAnthropic && ok && isJsonContentType upstream.contentType then
    translateAnthropicJsonResponse translators upstream
  else if context.isResponsesApi && isEventStream upstream.contentType then translateResponsesSseResponse
  else if context.isResponsesApi && ok && isJsonContentType upstream.contentType then
    translateResponsesJsonResponse translators upstream
  else { upstream with completed := false }

def answer (now : Int) (upstream : Response) : Response :=
  (maybeSynthesizeOmlxSseResponse context clientRequestedStream now upstream).getD
    (maybeTranslateResponse context translators upstream)

def cacheHitResponse (now : Int) (entry : ResponseCacheEntry) : Response :=
  let cachedBody := { status := entry.statusCode, contentType := some entry.contentType, body := entry.responseBody }
  if context.route.any fun route => route.engine = .omlx then
    (maybeSynthesizeOmlxSseResponse context clientRequestedStream now cachedBody).getD cachedBody
  else cachedBody

end

def isErrorEnvelope (text : List Nat) : Bool := (parse text).any fun parsed => truthy (parsed.get? "error")

def isCompleteSseBody (text : List Nat) : Bool :=
  includesText text (units "data: [DONE]\n") || includesText text (units "event: message_stop")

def shouldCacheSseResponse (context : ProxyContext) (upstream : Response) (text : List Nat) : Bool :=
  (!context.isAnthropic || upstream.completed) && isCompleteSseBody text

/-- The entry that is stored for an answer, if any. -/
def entryToPersist (config : ResponseCacheConfig) (context : ProxyContext) (responseCache : ResponseCacheRequestState)
    (canonicalBody : Option (List Nat)) (upstream : Response) (now : Int) : Option ResponseCacheEntry :=
  let persistedBody : ResponseBody := match canonicalBody with
    | some text => ⟨text, .openai⟩
    | none => upstream.body
  let persistedContentType := if canonicalBody.isSome then "application/json" else upstream.contentType.getD ""
  let isJson := isJsonContentType (some persistedContentType)
  let isSse := isEventStream (some persistedContentType)
  if upstream.status ≠ 200 || !(isJson || isSse) then none
  else if isJson && isErrorEnvelope persistedBody.text then none
  else if isSse && !shouldCacheSseResponse context upstream persistedBody.text then none
  else if config.responseCacheMaxEntryBytes < responseCache.requestBodyBytes + byteLength persistedBody.text then none
  else some {
    toResponseCacheLookup := responseCache.toResponseCacheLookup
    contentType := persistedContentType
    statusCode := upstream.status
    responseBody := persistedBody
    requestBodyBytes := responseCache.requestBodyBytes
    responseBodyBytes := byteLength persistedBody.text
    createdAt := now
    lastUsed := now }

def entryFor (config : ResponseCacheConfig) (context : ProxyContext) (prepared : Prepared) (upstream : Response) (now : Int) :
    Option ResponseCacheEntry :=
  entryToPersist config context prepared.responseCache
    (responseCacheCanonicalBody context prepared.clientRequestedStream upstream)
    (answer context prepared.clientRequestedStream config.translators now upstream) now

inductive Write where
  | tryDelete
  | bumpHit
  | insert
  deriving DecidableEq

inductive CacheLookup where
  /-- The request goes past the cache. -/
  | passed
  | missed (prepared : Prepared)
  | served (response : Response)

/-- `throws`: the row cannot be read. -/
def maybeResponseCacheLookup (config : ResponseCacheConfig) (db : ResponseEntries) (context : ProxyContext) (now : Int)
    (throws : Bool) (refused : Write → Bool) : ResponseEntries × CacheLookup :=
  match prepareLookup config.sha1 context with
  | none => (db, .passed)
  | some prepared =>
    let lookup := prepared.responseCache.toResponseCacheLookup
    if throws then (db, .missed prepared)
    else
      match ResponseCacheRegistry.findBySha db lookup with
      | none => (db, .missed prepared)
      | some hit =>
        if config.responseCacheTtlMs < now - hit.createdAt then
          (if refused .tryDelete then db else ResponseCacheRegistry.tryDelete db lookup, .missed prepared)
        else
          (if refused .bumpHit then db else ResponseCacheRegistry.bumpHit db lookup now,
            .served (cacheHitResponse context prepared.clientRequestedStream now hit))

/-- A request that was forwarded and will be stored. -/
structure Forwarded where
  context : ProxyContext
  prepared : Prepared

/-- An answer that was stored; only a history of the cache. -/
structure Stored extends Forwarded where
  upstream : Response
  entry : ResponseCacheEntry

structure ResponseCache where
  db : ResponseEntries := Table.empty
  forwarded : List Forwarded := []
  stored : List Stored := []

inductive Action where
  | arrive (context : ProxyContext) (now : Int) (throws : Bool) (refused : Write → Bool)
  | answered (request : Nat) (upstream : Response) (now : Int) (refused : Write → Bool)
      (outranks : ResponseCacheEntry → ResponseCacheEntry → Bool) (evictionThrows : Bool)

def fromUpstream (upstream : Response) : Response := { upstream with body := ⟨upstream.body.text, .openai⟩, completed := false }

def step (config : ResponseCacheConfig) (cache : ResponseCache) : Action → Option ResponseCache
  | .arrive context now throws refused =>
    let (db, found) := maybeResponseCacheLookup config cache.db context now throws refused
    match found with
    | .missed prepared => some { cache with db, forwarded := cache.forwarded ++ [⟨context, prepared⟩] }
    | _ => some { cache with db }
  | .answered request upstream now refused outranks evictionThrows =>
    match cache.forwarded[request]? with
    | none => none
    | some forwarded =>
      let upstream := fromUpstream upstream
      let rest := { cache with forwarded := cache.forwarded.eraseIdx request }
      match entryFor config forwarded.context forwarded.prepared upstream now with
      | none => some rest
      | some entry =>
        if refused .insert then some rest
        else
          let inserted := ResponseCacheRegistry.insert cache.db entry
          some { rest with
            db := if evictionThrows then inserted
              else runResponseCacheEvictionIfOverBudget outranks inserted config.responseCacheBudgetBytes
            stored := { forwarded with upstream, entry } :: cache.stored }

end llamactl.responsecache
