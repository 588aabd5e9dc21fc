import Llamactl.Effect.Transition
import Llamactl.Js.Number
import Llamactl.Js.Text

open js

namespace llamactl.rag

/-! The pipeline scheduler. Times are milliseconds; every clock reading and every period is a whole
number that a double holds exactly, so quotients rounded up are those of the integers. -/

/-- `Math.ceil(a / b)` -/
def ceilDiv (a b : Int) : Int := -(-a / b)

def nextBoundary (now period : Int) : Int :=
  let next := ceilDiv now period * period
  if next > now then next else next + period

def WEEK : Int := 7 * 24 * 60 * 60 * 1000

/-- `Date.UTC(1970, 0, 4)` -/
def SUNDAY_EPOCH : Int := 3 * 24 * 60 * 60 * 1000

def nextWeeklyBoundary (now : Int) : Int :=
  let sinceAnchor := now - SUNDAY_EPOCH
  let next := SUNDAY_EPOCH + ceilDiv sinceAnchor WEEK * WEEK
  if next > now then next else next + WEEK

inductive EveryUnit where
  | m
  | h
  | d
  deriving DecidableEq

def EveryUnit.char : EveryUnit → Char
  | .m => 'm'
  | .h => 'h'
  | .d => 'd'

def everyStepMs (n : Nat) : EveryUnit → Int
  | .m => n * 60000
  | .h => n * 3600000
  | .d => n * 86400000

def isDigit (c : Char) : Bool := 0x30 ≤ c.toNat && c.toNat ≤ 0x39

def digitsValue (digits : List Char) : Nat := digits.foldl (fun n c => 10 * n + (c.toNat - 0x30)) 0

def unitOf : List Char → Option EveryUnit
  | ['m'] => some .m
  | ['h'] => some .h
  | ['d'] => some .d
  | _ => none

/-- What `/^@every\s+(\d+)([mhd])$/` captures. -/
def matchEvery (text : List Char) : Option (Nat × EveryUnit) :=
  match text with
  | '@' :: 'e' :: 'v' :: 'e' :: 'r' :: 'y' :: rest =>
    let digits := (rest.dropWhile isTrimmed).takeWhile isDigit
    if rest.takeWhile isTrimmed = [] ∨ digits = [] then none
    else (unitOf ((rest.dropWhile isTrimmed).dropWhile isDigit)).map fun unit => (digitsValue digits, unit)
  | _ => none

def nextEveryRunAt (trimmed : String) (lastRunAtMs : Option Int) (now : Int) : Option Int :=
  match matchEvery trimmed.toList with
  | none => none
  | some (n, unit) =>
    let step := everyStepMs n unit
    if step ≤ 0 then none
    else
      match lastRunAtMs with
      | none => some now
      | some last => some (last + step)

def nextRunAt (schedule : String) (lastRunAtMs : Option Int) (now : Int) : Option Int :=
  let trimmed := trim schedule
  if trimmed = "@hourly" then some (nextBoundary now (60 * 60 * 1000))
  else if trimmed = "@daily" then some (nextBoundary now (24 * 60 * 60 * 1000))
  else if trimmed = "@weekly" then some (nextWeeklyBoundary now)
  else nextEveryRunAt trimmed lastRunAtMs now

structure PipelineRecord where
  name : String
  /-- `manifest.spec.schedule` -/
  schedule : Option String
  /-- `lastRun.at`, where there was a run -/
  lastRun : Option DateText

def PipelineRecord.lastAt (rec : PipelineRecord) : Option Int := rec.lastRun.bind Date.parse

inductive SkipReason where
  | inFlight
  | scheduleUnparseable
  deriving DecidableEq

inductive SchedulerJournalEntry where
  | scheduleFired (ts : DateText) (schedule : String) (nextAt : String)
  | scheduleSkipped (ts : DateText) (reason : SkipReason) (schedule : String)

/-- The pipelines on disk in listing order, the set `inFlight`, and each pipeline's journal entries. -/
structure Scheduler where
  records : List PipelineRecord
  inFlight : List String := []
  journal : List (String × SchedulerJournalEntry) := []

structure TickReport where
  considered : Nat := 0
  fired : List String := []
  skippedInFlight : List String := []
  unparseable : List String := []

/-- One tick: its clock reading, and for each pipeline the time at which the summary of a run started in
this tick is written, none where that run fails. -/
structure Tick where
  now : Instant
  recorded : String → Option Instant

/-- The state in the course of a tick; `ran` are the pipelines for which `run` was called. -/
structure TickState where
  scheduler : Scheduler
  report : TickReport := {}
  ran : List String := []

def appendSchedulerEntry (name : String) (entry : SchedulerJournalEntry) (s : TickState) : TickState :=
  { s with scheduler := { s.scheduler with journal := s.scheduler.journal ++ [(name, entry)] } }

def writeLastRun (name : String) (at_ : Instant) (records : List PipelineRecord) : List PipelineRecord :=
  records.map fun rec => if rec.name = name then { rec with lastRun := some at_.text } else rec

/-- `run`, `write` and the release of the slot. -/
def runAndRecord (name : String) (tick : Tick) (s : TickState) : TickState :=
  let records :=
    match tick.recorded name with
    | none => s.scheduler.records
    | some at_ => writeLastRun name at_ s.scheduler.records
  { s with
    scheduler := { s.scheduler with records, inFlight := s.scheduler.inFlight.filter (· ≠ name) }
    ran := s.ran ++ [name] }

/-- The error is the `RangeError` of a next run beyond the largest date, which nothing catches. -/
def fireScheduledRun (rec : PipelineRecord) (schedule : String) (tick : Tick) (s : TickState) :
    Except TickState TickState :=
  let inFlight := { s with scheduler := { s.scheduler with inFlight := s.scheduler.inFlight ++ [rec.name] } }
  match (nextRunAt schedule (some tick.now.ms) tick.now.ms).map Date.toISOString with
  | some none => .error inFlight
  | some (some nextAt) =>
    .ok (runAndRecord rec.name tick
      (appendSchedulerEntry rec.name (.scheduleFired tick.now.text schedule nextAt.text) inFlight))
  | none =>
    .ok (runAndRecord rec.name tick
      (appendSchedulerEntry rec.name (.scheduleFired tick.now.text schedule "unknown") inFlight))

def processScheduledRecord (rec : PipelineRecord) (schedule : String) (tick : Tick) (s : TickState) :
    Except TickState TickState :=
  match nextRunAt schedule rec.lastAt tick.now.ms with
  | none =>
    .ok (appendSchedulerEntry rec.name (.scheduleSkipped tick.now.text .scheduleUnparseable schedule)
      { s with report := { s.report with unparseable := s.report.unparseable ++ [rec.name] } })
  | some next =>
    if next > tick.now.ms then .ok s
    else if rec.name ∈ s.scheduler.inFlight then
      .ok (appendSchedulerEntry rec.name (.scheduleSkipped tick.now.text .inFlight schedule)
        { s with report := { s.report with skippedInFlight := s.report.skippedInFlight ++ [rec.name] } })
    else
      fireScheduledRun rec schedule tick
        { s with report := { s.report with fired := s.report.fired ++ [rec.name] } }

/-- The body of the loop over the listed records. -/
def tickRecord (tick : Tick) (s : TickState) (rec : PipelineRecord) : Except TickState TickState :=
  match rec.schedule with
  | none | some "" => .ok s
  | some schedule =>
    processScheduledRecord rec schedule tick
      { s with report := { s.report with considered := s.report.considered + 1 } }

def runSchedulerTick (scheduler : Scheduler) (tick : Tick) : Except TickState TickState :=
  scheduler.records.foldlM (tickRecord tick) { scheduler }

def endOf : Except TickState TickState → TickState
  | .ok s => s
  | .error s => s

def ranAt (scheduler : Scheduler) (tick : Tick) : List String := (endOf (runSchedulerTick scheduler tick)).ran

/-- The loop goes on unless a tick threw. -/
def schedulerStep (scheduler : Scheduler) (tick : Tick) : Option Scheduler :=
  match runSchedulerTick scheduler tick with
  | .ok s => some s.scheduler
  | .error _ => none

end llamactl.rag
