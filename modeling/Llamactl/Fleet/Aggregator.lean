import Llamactl.Collections.OrderedMap
import Llamactl.Effect.Transition
import Mathlib

open collections effect List Option

namespace llamactl.fleet.aggregator

/-! `aggregator.ts`: the cached entry of every peer, under polls that may overlap. -/

/-- An entry of the cache; a peer that was never fetched comes before every time. -/
structure AggregatedSnapshot (Snapshot : Type) where
  nodeId : String
  fetchedAt : WithBot Int
  snapshot : Option Snapshot
  stale : Bool
  error : Option String := none
  /-- the place of the fetch that brought the snapshot among those that succeeded -/
  landing : WithBot Nat := ⊥

/-- How the fetch of a peer comes back. -/
inductive FetchOutcome (Snapshot : Type) where
  | fetched (snapshot : Snapshot)
  | empty
  | failed (message : String)

structure FleetAggregatorOptions where
  /-- the ids of the peers -/
  peers : List String
  pollIntervalMs : Int := 30000

structure Fetch (Snapshot : Type) where
  peer : String
  now : Int
  prior : AggregatedSnapshot Snapshot
  /-- how many fetches had succeeded when the poll read the cache -/
  landedBefore : Nat

/-- A fetch that came back with a snapshot. -/
structure Landing where
  peer : String
  now : Int
  deriving DecidableEq

structure FleetAggregator (Snapshot : Type) where
  cache : OrderedMap String (AggregatedSnapshot Snapshot)
  timer : Bool := false
  fetches : List (Fetch Snapshot) := []
  /-- the fetches that have succeeded, in the order in which they came back -/
  landed : List Landing := []

section

variable {Snapshot : Type}

def unfetched (peer : String) : AggregatedSnapshot Snapshot :=
  { nodeId := peer, fetchedAt := ⊥, snapshot := none, stale := true }

/-- The constructor. -/
def newFleetAggregator (opts : FleetAggregatorOptions) : FleetAggregator Snapshot :=
  { cache := opts.peers.foldl (fun cache peer => cache.set peer (unfetched peer)) OrderedMap.empty }

namespace FleetAggregator

def entry (aggregator : FleetAggregator Snapshot) (peer : String) : AggregatedSnapshot Snapshot :=
  (aggregator.cache.get? peer).getD (unfetched peer)

def isFresh (opts : FleetAggregatorOptions) (now : Int) : WithBot Int → Bool
  | ⊥ => false
  | (fetchedAt : Int) => now - fetchedAt < opts.pollIntervalMs

/-- A poll up to its fetch of one peer, which is left out while the entry is younger than the interval. -/
def pollPeer (opts : FleetAggregatorOptions) (now : Int) (aggregator : FleetAggregator Snapshot) (peer : String) :
    FleetAggregator Snapshot :=
  let prior := aggregator.entry peer
  if isFresh opts now prior.fetchedAt then aggregator
  else { aggregator with fetches := aggregator.fetches ++ [⟨peer, now, prior, aggregator.landed.length⟩] }

/-- `pollNow` up to its waits. -/
def pollNow (opts : FleetAggregatorOptions) (aggregator : FleetAggregator Snapshot) (now : Int) :
    FleetAggregator Snapshot :=
  opts.peers.foldl (pollPeer opts now) aggregator

def setEntry (aggregator : FleetAggregator Snapshot) (peer : String) (entry : AggregatedSnapshot Snapshot) :
    FleetAggregator Snapshot :=
  { aggregator with cache := aggregator.cache.set peer entry }

/-- What a poll writes once the fetch of a peer is back. -/
def complete (aggregator : FleetAggregator Snapshot) (fetch : Fetch Snapshot) :
    FetchOutcome Snapshot → FleetAggregator Snapshot
  | .fetched snapshot =>
    { aggregator.setEntry fetch.peer
        { nodeId := fetch.peer, fetchedAt := fetch.now, snapshot := some snapshot, stale := false
          landing := .some aggregator.landed.length } with
      landed := aggregator.landed ++ [⟨fetch.peer, fetch.now⟩] }
  | .empty => aggregator.setEntry fetch.peer { fetch.prior with stale := true, error := some "empty snapshot" }
  | .failed message => aggregator.setEntry fetch.peer { fetch.prior with stale := true, error := some message }

/-- `start`, which polls unless the timer is set. -/
def start (opts : FleetAggregatorOptions) (aggregator : FleetAggregator Snapshot) (now : Int) :
    FleetAggregator Snapshot :=
  if aggregator.timer then aggregator else { aggregator.pollNow opts now with timer := true }

end FleetAggregator

/-- What happens to the aggregator. -/
inductive AggregatorAction (Snapshot : Type) where
  | start (now : Int)
  | tick (now : Int)
  | stop
  | pollNow (now : Int)
  /-- one of the fetches under way comes back -/
  | complete (index : Nat) (outcome : FetchOutcome Snapshot)

/-- The timer ticks while it is set, whether the polls before are over or not. -/
def aggregatorStep (opts : FleetAggregatorOptions) (aggregator : FleetAggregator Snapshot) :
    AggregatorAction Snapshot → Option (FleetAggregator Snapshot)
  | .start now => some (aggregator.start opts now)
  | .tick now => if aggregator.timer then some (aggregator.pollNow opts now) else none
  | .stop => some { aggregator with timer := false }
  | .pollNow now => some (aggregator.pollNow opts now)
  | .complete index outcome =>
    aggregator.fetches[index]?.map fun fetch =>
      ({ aggregator with fetches := aggregator.fetches.eraseIdx index } : FleetAggregator Snapshot).complete fetch outcome

/-- The fetches of a peer that have succeeded since the poll read the cache. -/
def landedSince (aggregator : FleetAggregator Snapshot) (fetch : Fetch Snapshot) : List Landing :=
  (aggregator.landed.drop fetch.landedBefore).filter fun landing => landing.peer = fetch.peer

/-- A step that goes forward: no entry gets an older time, and none falls back from the fetch its snapshot came with to
an earlier one. -/
structure Forward (aggregator next : FleetAggregator Snapshot) : Prop where
  fetchedAt : ∀ peer, (aggregator.entry peer).fetchedAt ≤ (next.entry peer).fetchedAt
  landing : ∀ peer, (aggregator.entry peer).landing ≤ (next.entry peer).landing

/-- A fetch that succeeds comes back after no fetch of its peer with a later clock reading, and one that fails comes
back after no fetch of its peer that succeeded while it was under way. -/
def InOrder (aggregator : FleetAggregator Snapshot) : AggregatorAction Snapshot → Prop
  | .complete index (.fetched _) =>
    ∀ fetch, aggregator.fetches[index]? = some fetch →
      ∀ landing ∈ aggregator.landed, landing.peer = fetch.peer → landing.now ≤ fetch.now
  | .complete index _ => ∀ fetch, aggregator.fetches[index]? = some fetch → landedSince aggregator fetch = []
  | _ => True

/-- The entry shows the last of the fetches of a peer that came back, and none of them has a later clock reading. -/
structure Latest (landed : List Landing) (peer : String) (entry : AggregatedSnapshot Snapshot) : Prop where
  covers : ∀ (index : Nat) (landing : Landing), landed[index]? = some landing → landing.peer = peer →
    WithBot.some index ≤ entry.landing ∧ landing.now ≤ entry.fetchedAt
  shown : entry.landing = ⊥ ∧ entry.fetchedAt = ⊥ ∨
    ∃ (index : Nat) (landing : Landing), landed[index]? = some landing ∧ landing.peer = peer ∧
      entry.landing = .some index ∧ entry.fetchedAt = landing.now

variable {landed : List Landing} {peer : String}

theorem latest_unfetched (hnone : ∀ landing ∈ landed, landing.peer ≠ peer) :
    Latest landed peer (unfetched peer : AggregatedSnapshot Snapshot) := by
  refine ⟨fun index landing hget hpeer => ?_, .inl ⟨rfl, rfl⟩⟩
  exact absurd hpeer (hnone landing (mem_of_getElem? hget))

variable {entry : AggregatedSnapshot Snapshot}

theorem Latest.append {first rest : List Landing}
    (hlatest : Latest first peer entry) (hother : ∀ landing ∈ rest, landing.peer ≠ peer) :
    Latest (first ++ rest) peer entry := by
  refine ⟨fun index landing hget hpeer => ?_, ?_⟩
  · by_cases hindex : index < first.length
    · rw [getElem?_append_left hindex] at hget
      exact hlatest.covers index landing hget hpeer
    · rw [getElem?_append_right (by omega)] at hget
      exact absurd hpeer (hother landing (mem_of_getElem? hget))
  refine hlatest.shown.imp id ?_
  rintro ⟨index, landing, hget, hshown⟩
  have hindex := (List.getElem?_eq_some_iff.mp hget).1
  exact ⟨index, landing, (getElem?_append_left hindex).trans hget, hshown⟩

variable {fetch : Fetch Snapshot}

/-- A fetch that comes back in order is the one that is shown. -/
theorem latest_landed (hlanding : entry.landing = .some landed.length) (hfetchedAt : entry.fetchedAt = fetch.now)
    (horder : ∀ landing ∈ landed, landing.peer = fetch.peer → landing.now ≤ fetch.now) :
    Latest (landed ++ [⟨fetch.peer, fetch.now⟩]) fetch.peer entry := by
  refine ⟨fun index landing hget hpeer => ?_, ?_⟩
  · rw [hlanding, hfetchedAt]
    have hindex := (List.getElem?_eq_some_iff.mp hget).1
    simp only [length_append, length_singleton] at hindex
    refine ⟨WithBot.coe_le_coe.mpr (by omega), WithBot.coe_le_coe.mpr ?_⟩
    obtain hold | hnew := mem_append.mp (mem_of_getElem? hget)
    · exact horder landing hold hpeer
    · rw [mem_singleton.mp hnew]
  · exact .inr ⟨landed.length, ⟨fetch.peer, fetch.now⟩, by simp, rfl, hlanding, hfetchedAt⟩

theorem Latest.landing_lt (hlatest : Latest landed peer entry) : entry.landing < WithBot.some landed.length := by
  obtain ⟨hlanding, -⟩ | ⟨index, landing, hget, -, hlanding, -⟩ := hlatest.shown
  · rw [hlanding]
    exact WithBot.bot_lt_coe _
  · rw [hlanding]
    exact WithBot.coe_lt_coe.mpr (List.getElem?_eq_some_iff.mp hget).1

theorem Latest.fetchedAt_le_iff (hlatest : Latest landed peer entry) (now : Int) :
    entry.fetchedAt ≤ now ↔ ∀ landing ∈ landed, landing.peer = peer → landing.now ≤ now := by
  constructor
  · intro hle landing hmem hpeer
    obtain ⟨index, hget⟩ := mem_iff_getElem?.mp hmem
    exact WithBot.coe_le_coe.mp ((hlatest.covers index landing hget hpeer).2.trans hle)
  intro hall
  obtain ⟨-, hfetchedAt⟩ | ⟨index, landing, hget, hpeer, -, hfetchedAt⟩ := hlatest.shown
  · rw [hfetchedAt]
    exact bot_le
  · rw [hfetchedAt]
    exact WithBot.coe_le_coe.mpr (hall landing (mem_of_getElem? hget) hpeer)

/-- Two entries that show the last fetch of a peer have its place and its time. -/
theorem Latest.le {other : AggregatedSnapshot Snapshot}
    (hentry : Latest landed peer entry) (hother : Latest landed peer other) :
    entry.fetchedAt ≤ other.fetchedAt ∧ entry.landing ≤ other.landing := by
  obtain ⟨hlanding, hfetchedAt⟩ | ⟨index, landing, hget, hpeer, hlanding, hfetchedAt⟩ := hentry.shown
  · rw [hlanding, hfetchedAt]
    exact ⟨bot_le, bot_le⟩
  rw [hlanding, hfetchedAt]
  obtain ⟨hindex, hnow⟩ := hother.covers index landing hget hpeer
  exact ⟨hnow, hindex⟩

/-- The cache shows the last fetch of every peer, and a fetch under way holds what was the last one at its start. -/
structure Inv (aggregator : FleetAggregator Snapshot) : Prop where
  cached : ∀ peer, Latest aggregator.landed peer (aggregator.entry peer)
  fetches : ∀ fetch ∈ aggregator.fetches, fetch.landedBefore ≤ aggregator.landed.length ∧
    Latest (aggregator.landed.take fetch.landedBefore) fetch.peer fetch.prior

@[simp] theorem landedSince_eq_nil_iff (aggregator : FleetAggregator Snapshot) (fetch : Fetch Snapshot) :
    landedSince aggregator fetch = [] ↔
      ∀ landing ∈ aggregator.landed.drop fetch.landedBefore, landing.peer ≠ fetch.peer := by
  simp [landedSince]

theorem pollPeer_cases (opts : FleetAggregatorOptions) (now : Int) (aggregator : FleetAggregator Snapshot)
    (peer : String) :
    aggregator.pollPeer opts now peer = aggregator ∨
      aggregator.pollPeer opts now peer =
        { aggregator with
          fetches := aggregator.fetches ++ [⟨peer, now, aggregator.entry peer, aggregator.landed.length⟩] } := by
  simp only [FleetAggregator.pollPeer]
  split
  · exact .inl rfl
  · exact .inr rfl

variable {aggregator : FleetAggregator Snapshot}

theorem Inv.pollPeer (hinv : Inv aggregator) (opts : FleetAggregatorOptions)
    (now : Int) (peer : String) : Inv (aggregator.pollPeer opts now peer) := by
  obtain heq | heq := pollPeer_cases opts now aggregator peer
  · rwa [heq]
  rw [heq]
  refine ⟨hinv.cached, fun fetch hmem => ?_⟩
  obtain hold | hnew := mem_append.mp hmem
  · exact hinv.fetches fetch hold
  · rw [mem_singleton.mp hnew]
    exact ⟨Nat.le_refl _, by simpa using hinv.cached peer⟩

theorem Inv.pollNow (hinv : Inv aggregator) (opts : FleetAggregatorOptions)
    (now : Int) : Inv (aggregator.pollNow opts now) := by
  unfold FleetAggregator.pollNow
  induction opts.peers generalizing aggregator with
  | nil => exact hinv
  | cons peer rest ih => exact ih (hinv.pollPeer opts now peer)

@[simp] theorem pollNow_cache (opts : FleetAggregatorOptions) (now : Int) (aggregator : FleetAggregator Snapshot) :
    (aggregator.pollNow opts now).cache = aggregator.cache := by
  unfold FleetAggregator.pollNow
  induction opts.peers generalizing aggregator with
  | nil => rfl
  | cons peer rest ih =>
    rw [foldl_cons, ih]
    obtain heq | heq := pollPeer_cases opts now aggregator peer <;> rw [heq]

@[simp] theorem entry_setEntry (aggregator : FleetAggregator Snapshot) (peer other : String)
    (entry : AggregatedSnapshot Snapshot) :
    (aggregator.setEntry peer entry).entry other = if other = peer then entry else aggregator.entry other := by
  simp only [FleetAggregator.entry, FleetAggregator.setEntry, OrderedMap.get?_set]
  split <;> rfl

theorem forward_of_cache {next : FleetAggregator Snapshot} (hcache : next.cache = aggregator.cache) :
    Forward aggregator next := by
  have hentry : ∀ peer, next.entry peer = aggregator.entry peer := fun peer => by
    simp only [FleetAggregator.entry, hcache]
  exact ⟨fun peer => (hentry peer ▸ le_refl _), fun peer => (hentry peer ▸ le_refl _)⟩

theorem forward_setEntry_iff {next : FleetAggregator Snapshot} (hcache : next.cache = aggregator.cache.set peer entry) :
    Forward aggregator next ↔
      (aggregator.entry peer).fetchedAt ≤ entry.fetchedAt ∧ (aggregator.entry peer).landing ≤ entry.landing := by
  have hentry : ∀ other, next.entry other = if other = peer then entry else aggregator.entry other := by
    intro other
    rw [← entry_setEntry, FleetAggregator.entry, FleetAggregator.entry, hcache, FleetAggregator.setEntry]
  constructor
  · intro hforward
    have hfetchedAt := hforward.fetchedAt peer
    have hlanding := hforward.landing peer
    rw [hentry, if_pos rfl] at hfetchedAt hlanding
    exact ⟨hfetchedAt, hlanding⟩
  rintro ⟨hfetchedAt, hlanding⟩
  refine ⟨fun other => ?_, fun other => ?_⟩ <;> rw [hentry other] <;> split
  · rename_i heq
    rwa [heq]
  · exact le_refl _
  · rename_i heq
    rwa [heq]
  · exact le_refl _

/-- What a poll has read is what the cache still shows exactly if no fetch of the peer has succeeded since. -/
theorem Inv.prior_le_iff (hinv : Inv aggregator) (hmem : fetch ∈ aggregator.fetches) :
    ((aggregator.entry fetch.peer).fetchedAt ≤ fetch.prior.fetchedAt ∧
        (aggregator.entry fetch.peer).landing ≤ fetch.prior.landing) ↔ landedSince aggregator fetch = [] := by
  obtain ⟨hlength, hprior⟩ := hinv.fetches fetch hmem
  have hcached := hinv.cached fetch.peer
  rw [landedSince_eq_nil_iff]
  constructor
  · rintro ⟨-, hle⟩ landing hlanding hpeer
    obtain ⟨offset, hget⟩ := mem_iff_getElem?.mp hlanding
    rw [getElem?_drop] at hget
    have hcovered := (hcached.covers _ landing hget hpeer).1.trans hle
    have hbefore := hprior.landing_lt
    rw [length_take, Nat.min_eq_left hlength] at hbefore
    have hlt := WithBot.coe_lt_coe.mp (hcovered.trans_lt hbefore)
    omega
  intro hnone
  have hlater := hprior.append hnone
  rw [take_append_drop] at hlater
  exact hcached.le hlater

theorem forward_complete_iff (hinv : Inv aggregator) {index : Nat} (hget : aggregator.fetches[index]? = some fetch) (outcome : FetchOutcome Snapshot) :
    Forward aggregator
        (({ aggregator with fetches := aggregator.fetches.eraseIdx index } : FleetAggregator Snapshot).complete fetch outcome) ↔
      InOrder aggregator (.complete index outcome) := by
  have hmem := mem_of_getElem? hget
  cases outcome with
  | fetched snapshot =>
    refine (forward_setEntry_iff rfl).trans ?_
    rw [and_iff_left (hinv.cached fetch.peer).landing_lt.le]
    simp only [InOrder, hget, Option.some.injEq, forall_eq']
    exact (hinv.cached fetch.peer).fetchedAt_le_iff fetch.now
  | empty =>
    refine (forward_setEntry_iff rfl).trans ?_
    simp only [InOrder, hget, Option.some.injEq, forall_eq']
    exact hinv.prior_le_iff hmem
  | failed message =>
    refine (forward_setEntry_iff rfl).trans ?_
    simp only [InOrder, hget, Option.some.injEq, forall_eq']
    exact hinv.prior_le_iff hmem

theorem Inv.complete (hinv : Inv aggregator) {index : Nat} (hget : aggregator.fetches[index]? = some fetch) (outcome : FetchOutcome Snapshot)
    (horder : InOrder aggregator (.complete index outcome)) :
    Inv (({ aggregator with fetches := aggregator.fetches.eraseIdx index } : FleetAggregator Snapshot).complete fetch outcome) := by
  have hmem := mem_of_getElem? hget
  -- a failed fetch shows again what its poll had read
  have hfailed : ∀ message, landedSince aggregator fetch = [] →
      Inv (({ aggregator with fetches := aggregator.fetches.eraseIdx index } : FleetAggregator Snapshot).setEntry fetch.peer
        { fetch.prior with stale := true, error := some message }) := by
    intro message hnone
    refine ⟨fun peer => ?_, fun other hother => hinv.fetches other (mem_of_mem_eraseIdx hother)⟩
    rw [entry_setEntry]
    split
    · rename_i heq
      have hlater := (hinv.fetches fetch hmem).2.append ((landedSince_eq_nil_iff aggregator fetch).mp hnone)
      rw [take_append_drop] at hlater
      rw [heq]
      exact ⟨hlater.covers, hlater.shown⟩
    · exact hinv.cached peer
  cases outcome with
  | fetched snapshot =>
    refine ⟨fun peer => ?_, fun other hother => ?_⟩
    · by_cases heq : peer = fetch.peer
      · subst heq
        have hentry := entry_setEntry aggregator fetch.peer fetch.peer
          { nodeId := fetch.peer, fetchedAt := fetch.now, snapshot := some snapshot, stale := false,
            landing := .some aggregator.landed.length }
        rw [if_pos rfl] at hentry
        exact latest_landed (congrArg AggregatedSnapshot.landing hentry) (congrArg AggregatedSnapshot.fetchedAt hentry)
          (horder fetch hget)
      have hentry := entry_setEntry aggregator fetch.peer peer
        { nodeId := fetch.peer, fetchedAt := fetch.now, snapshot := some snapshot, stale := false,
          landing := .some aggregator.landed.length }
      rw [if_neg heq] at hentry
      exact hentry ▸ (hinv.cached peer).append (by simpa using fun h => heq h.symm)
    obtain ⟨hlength, hprior⟩ := hinv.fetches other (mem_of_mem_eraseIdx hother)
    simp only [FleetAggregator.complete, length_append]
    refine ⟨by omega, ?_⟩
    rwa [take_append_of_le_length hlength]
  | empty => exact hfailed _ (horder fetch hget)
  | failed message => exact hfailed _ (horder fetch hget)

theorem aggregatorStep_inv (opts : FleetAggregatorOptions) (aggregator : FleetAggregator Snapshot)
    (action : AggregatorAction Snapshot) (next : FleetAggregator Snapshot) (hinv : Inv aggregator)
    (horder : InOrder aggregator action) (hstep : aggregatorStep opts aggregator action = some next) : Inv next := by
  cases action with
  | start now =>
    obtain rfl := Option.some.inj hstep
    simp only [FleetAggregator.start]
    split
    · exact hinv
    · exact ⟨(hinv.pollNow opts now).cached, (hinv.pollNow opts now).fetches⟩
  | tick now =>
    obtain ⟨-, hpoll⟩ := ite_none_right_eq_some.mp hstep
    obtain rfl := Option.some.inj hpoll
    exact hinv.pollNow opts now
  | stop =>
    obtain rfl := Option.some.inj hstep
    exact ⟨hinv.cached, hinv.fetches⟩
  | pollNow now =>
    obtain rfl := Option.some.inj hstep
    exact hinv.pollNow opts now
  | complete index outcome =>
    obtain ⟨fetch, hget, rfl⟩ := map_eq_some_iff.mp hstep
    exact hinv.complete hget outcome horder

theorem inv_newFleetAggregator (opts : FleetAggregatorOptions) : Inv (newFleetAggregator opts : FleetAggregator Snapshot) := by
  have hcache : ∀ (peers : List String) (cache : OrderedMap String (AggregatedSnapshot Snapshot)),
      (∀ peer, (cache.get? peer).getD (unfetched peer) = unfetched peer) →
      ∀ peer, ((peers.foldl (fun cache peer => cache.set peer (unfetched peer)) cache).get? peer).getD (unfetched peer) =
        unfetched peer := by
    intro peers
    induction peers with
    | nil => exact fun cache h => h
    | cons first rest ih =>
      intro cache h
      apply ih
      intro peer
      rw [OrderedMap.get?_set]
      split
      · rename_i heq
        rw [heq, getD_some]
      · exact h peer
  have hentry : ∀ peer, (newFleetAggregator opts : FleetAggregator Snapshot).entry peer = unfetched peer :=
    hcache opts.peers OrderedMap.empty fun peer => rfl
  refine ⟨fun peer => ?_, fun fetch hmem => absurd hmem not_mem_nil⟩
  rw [hentry]
  exact latest_unfetched fun landing hmem => absurd hmem not_mem_nil

theorem aggregatorStep_forward_iff (opts : FleetAggregatorOptions) (aggregator : FleetAggregator Snapshot)
    (action : AggregatorAction Snapshot) (hinv : Inv aggregator) :
    (∀ next, aggregatorStep opts aggregator action = some next → Forward aggregator next) ↔
      InOrder aggregator action := by
  cases action with
  | start now =>
    refine iff_of_true (fun next hstep => forward_of_cache ?_) trivial
    obtain rfl := Option.some.inj hstep
    simp only [FleetAggregator.start]
    split
    · rfl
    · exact pollNow_cache opts now aggregator
  | tick now =>
    refine iff_of_true (fun next hstep => forward_of_cache ?_) trivial
    obtain ⟨-, hpoll⟩ := ite_none_right_eq_some.mp hstep
    obtain rfl := Option.some.inj hpoll
    exact pollNow_cache opts now aggregator
  | stop =>
    refine iff_of_true (fun next hstep => forward_of_cache ?_) trivial
    obtain rfl := Option.some.inj hstep
    rfl
  | pollNow now =>
    refine iff_of_true (fun next hstep => forward_of_cache ?_) trivial
    obtain rfl := Option.some.inj hstep
    exact pollNow_cache opts now aggregator
  | complete index outcome =>
    cases hget : aggregator.fetches[index]? with
    | none =>
      have hstep : aggregatorStep opts aggregator (.complete index outcome) = none := by simp [aggregatorStep, hget]
      rw [hstep]
      refine iff_of_true (fun next h => nomatch h) ?_
      cases outcome <;> exact fun fetch h => nomatch hget.symm.trans h
    | some fetch =>
      rw [← forward_complete_iff hinv hget outcome]
      simp [aggregatorStep, hget]

/-- No entry goes back in a run exactly if every fetch of the run comes back in order. -/
theorem forward_iff_inOrder (opts : FleetAggregatorOptions) (actions : List (AggregatorAction Snapshot)) :
    Along (aggregatorStep opts)
        (fun aggregator action => ∀ next, aggregatorStep opts aggregator action = some next → Forward aggregator next)
        (newFleetAggregator opts) actions ↔
      Along (aggregatorStep opts) InOrder (newFleetAggregator opts) actions :=
  Along.congr_kept (aggregatorStep_inv opts) (aggregatorStep_forward_iff opts) (inv_newFleetAggregator opts) actions

/-- Two polls of the timer overlap: the one that started last comes back first. -/
theorem overlapping_polls_go_back :
    ¬Along (aggregatorStep { peers := ["mac-mini"] })
      (fun aggregator action =>
        ∀ next, aggregatorStep { peers := ["mac-mini"] } aggregator action = some next → Forward aggregator next)
      (newFleetAggregator { peers := ["mac-mini"] })
      [.start 0, .tick 30000, .complete 1 (.fetched "up"), .complete 0 (.failed "timeout")] := by
  intro h
  obtain ⟨-, h⟩ := h
  obtain ⟨-, h⟩ := h _ rfl
  obtain ⟨-, h⟩ := h _ rfl
  have hback := ((h _ rfl).1 _ rfl).fetchedAt "mac-mini"
  exact absurd hback (by decide)

end

end llamactl.fleet.aggregator
