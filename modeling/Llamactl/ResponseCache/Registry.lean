import Llamactl.Collections.Table
import Llamactl.Js.Objects
import Mathlib.Data.String.Basic

open js List collections Option

namespace llamactl.responsecache

/-! The identity of a request body: its canonical text. -/

def RESPONSE_CACHE_IGNORED_FIELDS : List (List Nat) := ["x_omlx_request_handle", "x_omlx_restore_epoch"].map units

/-- Below the root every value is rebuilt as it is. -/
def stripIgnoredFields : Json → Json
  | .obj fields => .obj (fields.filter fun field => field.1 ∉ RESPONSE_CACHE_IGNORED_FIELDS)
  | value => value

mutual

/-- The properties of every object in the order of their code units; the object that is
made of them lists its array indices first all the same. -/
def sortJsonValue : Json → Json
  | .null => .null
  | .bool value => .bool value
  | .num n => .num n
  | .str text => .str text
  | .arr items => .arr (sortJsonItems items)
  | .obj fields => .obj (ownEntries ((ownEntries (sortJsonFields fields)).insertionSort fun a b => a.1 ≤ b.1))

def sortJsonItems : List Json → List Json
  | [] => []
  | item :: items => sortJsonValue item :: sortJsonItems items

def sortJsonFields : List (List Nat × Json) → List (List Nat × Json)
  | [] => []
  | (key, value) :: fields => (key, sortJsonValue value) :: sortJsonFields fields

end

def canonicalBody (bodyText : List Nat) : List Nat :=
  match parse bodyText with
  | some parsed => stringifyValue (sortJsonValue (stripIgnoredFields parsed))
  | none => bodyText

def canonicalRequestSha (sha1 : List Nat → String) (bodyText : List Nat) : String := sha1 (canonicalBody bodyText)

theorem sortJsonFields_eq_map (fields : List (List Nat × Json)) :
    sortJsonFields fields = fields.map fun field => (field.1, sortJsonValue field.2) := by
  induction fields with
  | nil => rw [sortJsonFields, map_nil]
  | cons field fields ih => rw [sortJsonFields, ih, map_cons]

theorem property_sortJsonFields (key : List Nat) (fields : List (List Nat × Json)) :
    property key (ownEntries ((ownEntries (sortJsonFields fields)).insertionSort fun a b => a.1 ≤ b.1)) =
      (property key fields).map sortJsonValue := by
  have hsorted := perm_insertionSort (fun a b : List Nat × Json => a.1 ≤ b.1) (ownEntries (sortJsonFields fields))
  have hnodup := ownEntries_nodup (sortJsonFields fields)
  rw [property_ownEntries, property_congr ((hsorted.map Prod.fst).nodup_iff.mpr hnodup) hnodup fun _ => hsorted.mem_iff,
    property_ownEntries, sortJsonFields_eq_map, property_map]

theorem get?_sortJsonValue (key : String) (value : Json) :
    (sortJsonValue value).get? key = (value.get? key).map sortJsonValue := by
  cases value with
  | obj fields =>
    rw [sortJsonValue]
    exact property_sortJsonFields (units key) fields
  | _ => rw [sortJsonValue]; rfl

theorem get?_stripIgnoredFields {key : String} (hkey : units key ∉ RESPONSE_CACHE_IGNORED_FIELDS) (value : Json) :
    (stripIgnoredFields value).get? key = value.get? key := by
  cases value with
  | obj fields =>
    exact property_filter (fun name => decide (name ∉ RESPONSE_CACHE_IGNORED_FIELDS)) (by simpa using hkey)
  | _ => rfl

/-- Bodies with one canonical text agree in every property that is not ignored, as far
as that text tells values apart. -/
theorem get?_eq_of_canonicalBody_eq {first second : List Nat} {a b : Json} (hfirst : parse first = some a)
    (hsecond : parse second = some b) (hbody : canonicalBody first = canonicalBody second) {key : String}
    (hkey : units key ∉ RESPONSE_CACHE_IGNORED_FIELDS) :
    ((a.get? key).map sortJsonValue).map serialized = ((b.get? key).map sortJsonValue).map serialized := by
  unfold canonicalBody at hbody
  rw [hfirst, hsecond] at hbody
  have hread := congrArg parse hbody
  rw [parse_stringifyValue, parse_stringifyValue] at hread
  have hsame := congrArg (fun value => value.get? key) (Option.some.inj hread)
  rwa [get?_serialized, get?_serialized, get?_sortJsonValue, get?_sortJsonValue, get?_stripIgnoredFields hkey,
    get?_stripIgnoredFields hkey] at hsame

theorem eq_bool_of_serialized {value : Json} {truth : Bool} (hvalue : serialized (sortJsonValue value) = .bool truth) :
    value = .bool truth := by
  cases value with
  | bool actual =>
    rw [sortJsonValue, serialized] at hvalue
    exact hvalue
  | num n =>
    rw [sortJsonValue, serialized] at hvalue
    split at hvalue
    · cases hvalue
    · cases hvalue
  | null =>
    rw [sortJsonValue, serialized] at hvalue
    cases hvalue
  | str text =>
    rw [sortJsonValue, serialized] at hvalue
    cases hvalue
  | arr items =>
    rw [sortJsonValue, serialized] at hvalue
    cases hvalue
  | obj fields =>
    rw [sortJsonValue, serialized] at hvalue
    cases hvalue

theorem get?_bool_of_canonicalBody_eq {first second : List Nat} {a b : Json} (hfirst : parse first = some a)
    (hsecond : parse second = some b) (hbody : canonicalBody first = canonicalBody second) {key : String} {truth : Bool}
    (hkey : units key ∉ RESPONSE_CACHE_IGNORED_FIELDS) (hvalue : a.get? key = some (.bool truth)) :
    b.get? key = some (.bool truth) := by
  have hsame := get?_eq_of_canonicalBody_eq hfirst hsecond hbody hkey
  rw [hvalue, map_some, map_some, sortJsonValue, serialized, Option.map_map, eq_comm,
    map_eq_some_iff] at hsame
  obtain ⟨value, hget, hwritten⟩ := hsame
  rw [hget, eq_bool_of_serialized hwritten]

inductive ProtocolVariant where
  | openai
  | anthropic
  | responses
  deriving DecidableEq

/-- The primary key of `response_entries`. -/
structure ResponseCacheLookup where
  sha : String
  model : List Nat
  workload : String
  workloadEpoch : String
  protocolVariant : ProtocolVariant
  deriving DecidableEq

/-- The body of a response, and the protocol it is written in by whoever wrote it. -/
structure ResponseBody where
  text : List Nat
  format : ProtocolVariant
  deriving DecidableEq

structure ResponseCacheEntry extends ResponseCacheLookup where
  contentType : String
  statusCode : Nat
  responseBody : ResponseBody
  requestBodyBytes : Nat
  responseBodyBytes : Nat
  createdAt : Int
  lastUsed : Int
  hits : Nat := 0
  deriving DecidableEq

abbrev ResponseEntries : Type := Table ResponseCacheEntry ResponseCacheEntry.toResponseCacheLookup

def ResponseCacheEntry.SameAs (row entry : ResponseCacheEntry) : Prop :=
  row = { entry with hits := row.hits, lastUsed := row.lastUsed }

namespace ResponseCacheRegistry

variable (db : ResponseEntries)

/-- `ON CONFLICT(sha, model, workload, workload_epoch, protocol_variant) DO UPDATE` -/
def insert (entry : ResponseCacheEntry) : ResponseEntries :=
  db.upsert entry (fun held => { entry with toResponseCacheLookup := held.toResponseCacheLookup }) fun _ => rfl

def findBySha (lookup : ResponseCacheLookup) : Option ResponseCacheEntry := db.find lookup

def bumpHit (lookup : ResponseCacheLookup) (now : Int) : ResponseEntries :=
  db.modify (fun entry => entry.toResponseCacheLookup = lookup)
    (fun entry => { entry with hits := entry.hits + 1, lastUsed := now }) fun _ => rfl

def tryDelete (lookup : ResponseCacheLookup) : ResponseEntries :=
  db.keeping fun entry => entry.toResponseCacheLookup ≠ lookup

/-- `ORDER BY sha ASC` -/
def listAll : List ResponseCacheEntry := db.rows.insertionSort fun a b => a.sha ≤ b.sha

variable {db} {entry row : ResponseCacheEntry} {lookup : ResponseCacheLookup}

theorem mem_insert (hrow : row ∈ (insert db entry).rows) : row = entry ∨ row ∈ db.rows := by
  rcases Table.mem_upsert_iff.mp hrow with ⟨hold, -⟩ | ⟨held, -, hkey, rfl⟩ | ⟨-, hnew⟩
  · exact Or.inr hold
  · left
    rw [hkey]
  · exact Or.inl hnew

theorem mem_bumpHit {now : Int} (hrow : row ∈ (bumpHit db lookup now).rows) : ∃ old ∈ db.rows, row.SameAs old := by
  obtain ⟨old, hold, rfl⟩ := List.mem_map.mp hrow
  refine ⟨old, hold, ?_⟩
  unfold ResponseCacheEntry.SameAs
  split
  · rfl
  · rfl

theorem mem_tryDelete (hrow : row ∈ (tryDelete db lookup).rows) : row ∈ db.rows := mem_of_mem_filter hrow

end ResponseCacheRegistry

/-- The bytes and the rows that are left while an eviction goes on. -/
structure ResponseEvictionRun where
  totalBytes : Int
  db : ResponseEntries

def totalEntryBytes (entry : ResponseCacheEntry) : Int := entry.requestBodyBytes + entry.responseBodyBytes

/-- The loop body. Once the total is within the budget the loop is left. -/
def evictResponse (budgetBytes : Int) (run : ResponseEvictionRun) (entry : ResponseCacheEntry) : ResponseEvictionRun :=
  if run.totalBytes ≤ budgetBytes then run
  else if entry.toResponseCacheLookup ∈ run.db.rows.map ResponseCacheEntry.toResponseCacheLookup then
    { totalBytes := run.totalBytes - totalEntryBytes entry
      db := ResponseCacheRegistry.tryDelete run.db entry.toResponseCacheLookup }
  else run

/-- `outranks a b` says that `a` scores at least as high as `b`. -/
def runResponseCacheEvictionIfOverBudget (outranks : ResponseCacheEntry → ResponseCacheEntry → Bool) (db : ResponseEntries)
    (budgetBytes : Int) : ResponseEntries :=
  let entries := ResponseCacheRegistry.listAll db
  let totalBytes := (entries.map totalEntryBytes).sum
  if totalBytes ≤ budgetBytes then db
  else ((entries.insertionSort fun a b => outranks a b = true).foldl (evictResponse budgetBytes) { totalBytes, db }).db

theorem mem_runResponseCacheEviction {outranks : ResponseCacheEntry → ResponseCacheEntry → Bool} {db : ResponseEntries}
    {budgetBytes : Int} {row : ResponseCacheEntry}
    (hrow : row ∈ (runResponseCacheEvictionIfOverBudget outranks db budgetBytes).rows) : row ∈ db.rows := by
  have hstep : ∀ (run : ResponseEvictionRun) (entry : ResponseCacheEntry),
      row ∈ (evictResponse budgetBytes run entry).db.rows → row ∈ run.db.rows := by
    intro run entry hafter
    unfold evictResponse at hafter
    split at hafter
    · exact hafter
    split at hafter
    · exact ResponseCacheRegistry.mem_tryDelete hafter
    · exact hafter
  have hfold : ∀ (entries : List ResponseCacheEntry) (run : ResponseEvictionRun),
      row ∈ (entries.foldl (evictResponse budgetBytes) run).db.rows → row ∈ run.db.rows := by
    intro entries
    induction entries with
    | nil => exact fun _ hafter => hafter
    | cons entry entries ih => exact fun run hafter => hstep run entry (ih _ hafter)
  unfold runResponseCacheEvictionIfOverBudget at hrow
  dsimp only at hrow
  split at hrow
  · exact hrow
  · exact hfold _ _ hrow

end llamactl.responsecache
