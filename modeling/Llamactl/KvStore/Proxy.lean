import Llamactl.Effect.Transition
import Llamactl.KvStore.Registry

open collections

namespace llamactl.kvstore

/-! The path of proxied requests through the store. Each step runs from one `await` of a
request to its next; between them the other requests take theirs. -/

structure SlotAllocator where
  maxSlots : Nat := 1
  singleSlotBusy : Bool := false
  busySlots : List Nat := []
  deriving DecidableEq

namespace SlotAllocator

variable (allocator : SlotAllocator)

def acquire : Option (Nat × SlotAllocator) :=
  if allocator.maxSlots = 1 then
    if allocator.singleSlotBusy then none else some (0, { allocator with singleSlotBusy := true })
  else
    ((List.range allocator.maxSlots).find? fun slotId => slotId ∉ allocator.busySlots).map fun slotId =>
      (slotId, { allocator with busySlots := slotId :: allocator.busySlots })

/-- The release of a lease; a second release of the same lease does nothing, and no
lease outlives its first one here. -/
def release (slotId : Nat) : SlotAllocator :=
  if allocator.maxSlots = 1 then { allocator with singleSlotBusy := false }
  else { allocator with busySlots := allocator.busySlots.filter fun busy => busy ≠ slotId }

def inUse : List Nat :=
  if allocator.maxSlots = 1 then if allocator.singleSlotBusy then [0] else []
  else allocator.busySlots.insertionSort (· ≤ ·)

end SlotAllocator

/-- The database and the allocators, one slot for each workload. -/
structure KvRuntime where
  registry : KvEntries
  allocators : String → SlotAllocator := fun _ => {}

/-- What the proxy knows of a request when it comes to the store. -/
structure ProxyRequest where
  workload : String
  model : String
  slotDir : String
  quantBits : Int := 8
  ctxSize : Nat := 0
  workloadEpoch : String
  /-- The sha of the body text and its length in bytes. -/
  sha : String
  prefixMetric : Nat
  /-- The route, its metadata and the body let the request use the store. -/
  usesKv : Bool := true
  /-- Host and port of the route make a URL. -/
  endpointValid : Bool := true
  omlx : Bool := false
  isAnthropic : Bool := false
  enforceFirstTokenEquivalence : Bool := false
  deriving DecidableEq

/-- A warm hit: the row that was found, and the slot leased for it. -/
structure WarmHit where
  hit : KvEntry
  slotId : Nat
  deriving DecidableEq

/-- A cold request may persist its slot; a warm one holds a row and a lease. -/
inductive KvRequestState where
  | cold
  | warm (held : WarmHit)
  deriving DecidableEq

/-- Where a request waits. -/
inductive Phase where
  | arrived
  | restoring (held : WarmHit)
  /-- for the restore to be bound into the body -/
  | binding (held : WarmHit)
  | injecting
  /-- for the upstream's answer and its body -/
  | forwarding (kv : Option KvRequestState)
  /-- for the save-handle probe -/
  | probing (firstResponseToken : Option String)
  /-- for the upstream to save the slot -/
  | saving (slotId : Nat) (firstResponseToken : Option String)
  /-- for the response to be translated and cached -/
  | replying
  | finished
  deriving DecidableEq

/-- The writes of a step, each caught by `safeWrite` when SQLite refuses it. -/
inductive Write where
  | reserve
  | activate
  | release
  | delete
  | bumpHit
  | insert
  | purge
  deriving DecidableEq

/-- What the tool map of the hit's trailer gives. -/
inductive TrailerReplay where
  | absent
  | translated (replaySha : String)
  | undecodable
  deriving DecidableEq

inductive WarmHitReplay where
  | none
  | mismatch
  | replayed
  deriving DecidableEq

def EXT_FLAG_TOOL_MAP : Nat := 1

def applyAnthropicToolMapReplay (request : ProxyRequest) (hit : KvEntry) (trailer : TrailerReplay) :
    Except Unit WarmHitReplay :=
  if !request.isAnthropic || hit.extFlags &&& EXT_FLAG_TOOL_MAP = 0 then .ok .none
  else
    match trailer with
    | .absent => .ok .none
    | .undecodable => .error ()
    | .translated replaySha => .ok (if replaySha ≠ hit.sha then .mismatch else .replayed)

section

variable (request : ProxyRequest) (refused : Write → Bool) (runtime : KvRuntime)

def setAllocator (allocator : SlotAllocator) : KvRuntime :=
  { runtime with allocators := Function.update runtime.allocators request.workload allocator }

def releaseLease (slotId : Nat) : KvRuntime :=
  setAllocator request runtime ((runtime.allocators request.workload).release slotId)

def releaseRow (sha : String) : KvRuntime :=
  if refused .release then runtime else { runtime with registry := (KvRegistry.release runtime.registry sha).2 }

def releaseWarmHitLease (held : WarmHit) : KvRuntime :=
  releaseLease request (releaseRow refused runtime held.hit.sha) held.slotId

/-- The phase of a miss. On oMLX the slot client is needed for the save handle. -/
def coldPhase : Phase :=
  if !request.omlx then .forwarding (some .cold)
  else if request.endpointValid then .injecting
  else .forwarding none

def lookupHit : Option KvEntry :=
  (longestPrefixLookup runtime.registry {
    candidatePrefixes := [⟨request.sha, request.prefixMetric, request.prefixMetric⟩]
    workload := request.workload
    quantBits := request.quantBits
    ctxSize := request.ctxSize
    workloadEpoch := request.workloadEpoch }).filter fun hit => hit.model = none ∨ hit.model = some request.model

/-- Up to the restore. The slot client is made after the slot is leased; when that
throws, the lookup is given up with the row reserved and the slot leased. -/
def applyWarmKvHit (hit : KvEntry) : KvRuntime × Phase :=
  if refused .reserve then (runtime, coldPhase request)
  else
    match KvRegistry.reserve runtime.registry hit.sha with
    | (false, _) => (runtime, coldPhase request)
    | (true, registry) =>
      match (runtime.allocators request.workload).acquire with
      | none => (releaseRow refused { runtime with registry } hit.sha, coldPhase request)
      | some (slotId, allocator) =>
        (setAllocator request { runtime with registry } allocator,
          if request.endpointValid then .restoring ⟨hit, slotId⟩ else .forwarding none)

def maybeKvLookup : KvRuntime × Phase :=
  match lookupHit request runtime with
  | none => (runtime, coldPhase request)
  | some hit => applyWarmKvHit request refused runtime hit

/-- After the restore; a replay that throws gives up the lookup as above. -/
def finishRestore (held : WarmHit) (restored : Bool) (trailer : TrailerReplay) : KvRuntime × Phase :=
  let activation := if refused .activate then (false, runtime.registry) else KvRegistry.activate runtime.registry held.hit.sha
  let runtime := { runtime with registry := activation.2 }
  if !(restored && activation.1) then
    let runtime := releaseWarmHitLease request refused runtime held
    (if restored || refused .delete then runtime
      else { runtime with registry := KvRegistry.delete runtime.registry held.hit.sha (some held.hit.upstreamSlotFile) },
      coldPhase request)
  else
    match applyAnthropicToolMapReplay request held.hit trailer with
    | .error _ => (runtime, .forwarding none)
    | .ok .mismatch =>
      let runtime := releaseWarmHitLease request refused runtime held
      (if refused .delete then runtime
        else { runtime with registry := KvRegistry.tryDelete runtime.registry held.hit.sha (some held.hit.upstreamSlotFile) },
        coldPhase request)
    | .ok _ => (runtime, .binding held)

/-- The bump never throws: a refused one is passed over. -/
def finishBind (held : WarmHit) (now : Int) : KvRuntime × Phase :=
  (if refused .bumpHit then runtime else { runtime with registry := KvRegistry.bumpHit runtime.registry held.hit.sha now },
    .forwarding (some (.warm held)))

def isFalseHit (held : WarmHit) (firstResponseToken : Option String) : Bool :=
  request.enforceFirstTokenEquivalence && held.hit.firstResponseToken.isSome && firstResponseToken.isSome &&
    held.hit.firstResponseToken ≠ firstResponseToken

def dropFalseHit (held : WarmHit) : KvRuntime :=
  let registry :=
    if refused .release then runtime.registry
    else
      let released := (KvRegistry.release runtime.registry held.hit.sha).2
      if refused .delete then released else KvRegistry.tryDelete released held.hit.sha (some held.hit.upstreamSlotFile)
  releaseLease request { runtime with registry } held.slotId

def startSave (firstResponseToken : Option String) : KvRuntime × Phase :=
  match (runtime.allocators request.workload).acquire with
  | none => (runtime, .replying)
  | some (slotId, allocator) => (setAllocator request runtime allocator, .saving slotId firstResponseToken)

/-- What the proxy reads of the upstream's answer. -/
structure UpstreamReply where
  firstResponseToken : Option String := none
  /-- status 200 with a JSON body, not a stream -/
  persistable : Bool := true
  deriving DecidableEq

def maybePersistKv (kv : Option KvRequestState) (reply : UpstreamReply) : KvRuntime × Phase :=
  match kv with
  | none => (runtime, .replying)
  | some (.warm held) =>
    (if isFalseHit request held reply.firstResponseToken then dropFalseHit request refused runtime held
      else releaseWarmHitLease request refused runtime held, .replying)
  | some .cold =>
    if !reply.persistable then (runtime, .replying)
    else if request.omlx then (runtime, .probing reply.firstResponseToken)
    else startSave request runtime reply.firstResponseToken

/-- A slot that the upstream saved, and what its maintenance came to. -/
structure SavedSlot where
  now : Int := 0
  payloadBytes : Nat := 0
  extFlags : Nat := 0
  byteBudget : Int := 0
  outranks : KvEntry → KvEntry → Bool := fun _ _ => true
  evictionThrows : Bool := false

def savedEntry (firstResponseToken : Option String) (slot : SavedSlot) : KvEntry :=
  { sha := request.sha
    workload := request.workload
    model := some request.model
    upstreamSlotFile := request.slotDir ++ "/" ++ request.sha ++ ".kvslot"
    quantBits := request.quantBits
    tokens := request.prefixMetric
    ctxSize := request.ctxSize
    createdAt := slot.now
    lastUsed := slot.now
    payloadBytes := slot.payloadBytes
    textBytes := request.prefixMetric
    prefixByteLength := request.prefixMetric
    workloadEpoch := request.workloadEpoch
    firstResponseToken
    extFlags := slot.extFlags }

def maintained (firstResponseToken : Option String) (slot : SavedSlot) : KvEntries :=
  if refused .insert then runtime.registry
  else
    let inserted := KvRegistry.insert runtime.registry (savedEntry request firstResponseToken slot)
    if slot.evictionThrows then inserted
    else
      let evicted := (runEvictionIfOverBudget slot.outranks inserted request.workload slot.byteBudget).db
      if refused .purge then evicted else KvRegistry.deleteEpochStale evicted request.workload request.workloadEpoch

/-- `none`: the upstream did not save the slot, or saving threw. -/
def persistSlotAndMaintain (slotId : Nat) (firstResponseToken : Option String) (saved : Option SavedSlot) : KvRuntime × Phase :=
  let registry := match saved with
    | none => runtime.registry
    | some slot => maintained request refused runtime firstResponseToken slot
  (releaseLease request { runtime with registry } slotId, .replying)

end

/-- What a request resumes with. -/
inductive Resume where
  | lookup (throws : Bool)
  | restored (ok : Bool) (trailer : TrailerReplay)
  | bound (now : Int)
  | injected
  | answered (reply : UpstreamReply)
  | threw
  | probed (supported : Bool)
  | saved (slot : Option SavedSlot)
  | replied

def advance (request : ProxyRequest) (refused : Write → Bool) (runtime : KvRuntime) :
    Phase → Resume → Option (KvRuntime × Phase)
  | .arrived, .lookup throws =>
    if !request.usesKv || throws then some (runtime, .forwarding none) else some (maybeKvLookup request refused runtime)
  | .restoring held, .restored ok trailer => some (finishRestore request refused runtime held ok trailer)
  | .binding held, .bound now => some (finishBind refused runtime held now)
  | .injecting, .injected => some (runtime, .forwarding (some .cold))
  | .forwarding kv, .answered reply => some (maybePersistKv request refused runtime kv reply)
  | .forwarding (some (.warm held)), .threw => some (releaseWarmHitLease request refused runtime held, .finished)
  | .forwarding _, .threw => some (runtime, .finished)
  | .probing firstResponseToken, .probed supported =>
    some (if supported then startSave request runtime firstResponseToken else (runtime, .replying))
  | .saving slotId firstResponseToken, .saved slot =>
    some (persistSlotAndMaintain request refused runtime slotId firstResponseToken slot)
  | .replying, .replied => some (runtime, .finished)
  | _, _ => none

structure Task where
  request : ProxyRequest
  phase : Phase

/-- The requests so far; `taken` are the rows that requests reserved. -/
structure Proxy where
  runtime : KvRuntime
  tasks : List Task := []
  taken : List String := []

inductive Action where
  | accept (request : ProxyRequest)
  | resume (task : Nat) (refused : Write → Bool) (reply : Resume)

/-- The row that the step reserves. -/
def takes (task : Task) (refused : Write → Bool) (runtime : KvRuntime) : Resume → List String
  | .lookup false =>
    match task.phase, lookupHit task.request runtime with
    | .arrived, some hit =>
      if task.request.usesKv && !refused .reserve && (KvRegistry.reserve runtime.registry hit.sha).1 then [hit.sha] else []
    | _, _ => []
  | _ => []

def step (proxy : Proxy) : Action → Option Proxy
  | .accept request => some { proxy with tasks := proxy.tasks ++ [⟨request, .arrived⟩] }
  | .resume id refused reply =>
    match proxy.tasks[id]? with
    | none => none
    | some task =>
      (advance task.request refused proxy.runtime task.phase reply).map fun next =>
        { runtime := next.1
          tasks := proxy.tasks.set id { task with phase := next.2 }
          taken := takes task refused proxy.runtime reply ++ proxy.taken }

end llamactl.kvstore
