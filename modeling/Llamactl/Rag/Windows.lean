import Mathlib.Data.List.TakeWhile
import Llamactl.Rag.Scheduler

open effect js List

namespace llamactl.rag

/-! Which pipelines a tick runs, against what their schedules ask for. -/

inductive Cadence where
  | hourly
  | daily
  | weekly
  | every (n : Nat) (unit : EveryUnit)

def Cadence.WrittenAs : Cadence → String → Prop
  | .hourly, schedule => trim schedule = "@hourly"
  | .daily, schedule => trim schedule = "@daily"
  | .weekly, schedule => trim schedule = "@weekly"
  | .every n unit, schedule => ∃ spaces digits : List Char,
      spaces ≠ [] ∧ spaces.all isTrimmed = true ∧ digits ≠ [] ∧ digits.all isDigit = true ∧ digitsValue digits = n ∧
      (trim schedule).toList = "@every".toList ++ (spaces ++ (digits ++ [unit.char]))

/-- A boundary lies after the previous run, if there was one, and at or before `now`. -/
def BoundaryPassed (boundary : Int → Prop) (last : Option Int) (now : Int) : Prop :=
  ∃ b, boundary b ∧ (∀ l ∈ last, l < b) ∧ b ≤ now

/-- The cadence asks for a run at `now`, when the previous run was at `last`. -/
def Cadence.Due : Cadence → Option Int → Int → Prop
  | .hourly, last, now => BoundaryPassed (fun b => (60 * 60 * 1000 : Int) ∣ b) last now
  | .daily, last, now => BoundaryPassed (fun b => (24 * 60 * 60 * 1000 : Int) ∣ b) last now
  | .weekly, last, now => BoundaryPassed (fun b => WEEK ∣ b - SUNDAY_EPOCH) last now
  | .every n unit, last, now => ∀ l ∈ last, l + everyStepMs n unit ≤ now

/-- A tick runs exactly the pipelines whose cadence asks for it. -/
def FiresOncePerWindow (scheduler : Scheduler) (tick : Tick) : Prop :=
  ∀ rec ∈ scheduler.records, ∀ schedule, ∀ cadence : Cadence, rec.schedule = some schedule → cadence.WrittenAs schedule →
    (rec.name ∈ ranAt scheduler tick ↔ cadence.Due rec.lastAt tick.now.ms)

/-- The cadence is one that the scheduler serves at `now`: nothing is due that counts boundaries or steps
of no length, and the run after one that is due falls within the dates. -/
def Cadence.Served : Cadence → Option Int → Int → Prop
  | .every (n + 1) unit, last, now =>
    Cadence.Due (.every (n + 1) unit) last now → now + everyStepMs (n + 1) unit ≤ Date.maxTime
  | cadence, last, now => ¬ cadence.Due last now

def AllServed (scheduler : Scheduler) (tick : Tick) : Prop :=
  ∀ rec ∈ scheduler.records, ∀ schedule, ∀ cadence : Cadence, rec.schedule = some schedule → cadence.WrittenAs schedule →
    cadence.Served rec.lastAt tick.now.ms

section

theorem lt_nextBoundary (now : Int) {period : Int} (hperiod : 0 < period) : now < nextBoundary now period := by
  have hceil : now ≤ ceilDiv now period * period := by
    have hfloor := Int.ediv_mul_le (-now) (show period ≠ 0 by omega)
    unfold ceilDiv
    rw [Int.neg_mul]
    omega
  unfold nextBoundary
  dsimp only
  split <;> omega

theorem lt_nextWeeklyBoundary (now : Int) : now < nextWeeklyBoundary now := by
  unfold nextWeeklyBoundary ceilDiv WEEK SUNDAY_EPOCH
  dsimp only
  split <;> omega

theorem takeWhile_append_stop {α : Type} {p : α → Bool} {xs ys : List α} (hxs : xs.all p = true)
    (hys : ∀ y ∈ ys.head?, p y = false) :
    (xs ++ ys).takeWhile p = xs ∧ (xs ++ ys).dropWhile p = ys := by
  induction xs with
  | nil =>
    cases ys with
    | nil => exact ⟨rfl, rfl⟩
    | cons y ys => simp [hys y rfl]
  | cons x xs ih =>
    simp only [all_cons, Bool.and_eq_true] at hxs
    simp [hxs.1, ih hxs.2]

theorem isTrimmed_digit {c : Char} (hdigit : isDigit c = true) : isTrimmed c = false := by
  unfold isDigit at hdigit
  simp only [Bool.and_eq_true, decide_eq_true_eq] at hdigit
  simp [isTrimmed]
  omega

theorem matchEvery_written {spaces digits : List Char} (unit : EveryUnit) (hspaces : spaces ≠ [])
    (hblank : spaces.all isTrimmed = true) (hdigits : digits ≠ []) (hall : digits.all isDigit = true) :
    matchEvery ("@every".toList ++ (spaces ++ (digits ++ [unit.char]))) = some (digitsValue digits, unit) := by
  have hunit : ∀ c ∈ [unit.char].head?, isDigit c = false := by
    cases unit <;> simp [EveryUnit.char, isDigit]
  have hstop : ∀ c ∈ (digits ++ [unit.char]).head?, isTrimmed c = false := by
    intro c hc
    obtain ⟨d, ds, rfl⟩ := exists_cons_of_ne_nil hdigits
    obtain rfl : d = c := by simpa using hc
    simp only [all_cons, Bool.and_eq_true] at hall
    exact isTrimmed_digit hall.1
  obtain ⟨htake, hdrop⟩ := takeWhile_append_stop hblank hstop
  obtain ⟨htakeDigits, hdropDigits⟩ := takeWhile_append_stop hall hunit
  show matchEvery ('@' :: 'e' :: 'v' :: 'e' :: 'r' :: 'y' :: (spaces ++ (digits ++ [unit.char]))) = _
  simp only [matchEvery, htake, hdrop, htakeDigits, hdropDigits, hspaces, hdigits, or_self, if_false]
  cases unit <;> rfl

variable {unit : EveryUnit}

theorem unitOf_eq {text : List Char} (hunit : unitOf text = some unit) : text = [unit.char] := by
  unfold unitOf at hunit
  split at hunit <;> cases hunit <;> rfl

variable {schedule : String}

/-- The pattern captures only texts that are written as it says. -/
theorem written_of_matchEvery {n : Nat}
    (hmatch : matchEvery (trim schedule).toList = some (n, unit)) : (Cadence.every n unit).WrittenAs schedule := by
  unfold matchEvery at hmatch
  split at hmatch
  · rename_i rest htext
    dsimp only at hmatch
    split at hmatch
    · cases hmatch
    rename_i hparts
    obtain ⟨unit', hunit, heq⟩ := Option.map_eq_some_iff.mp hmatch
    obtain ⟨rfl, rfl⟩ : digitsValue ((rest.dropWhile isTrimmed).takeWhile isDigit) = n ∧ unit' = unit := by
      simpa using heq
    obtain ⟨hspaces, hdigits⟩ := not_or.mp hparts
    refine ⟨_, _, hspaces, all_takeWhile, hdigits, all_takeWhile, rfl, ?_⟩
    rw [htext, ← unitOf_eq hunit, takeWhile_append_dropWhile, takeWhile_append_dropWhile]
    rfl
  · cases hmatch

theorem nextRunAt_boundary {cadence : Cadence} (hwritten : cadence.WrittenAs schedule)
    (hboundary : ∀ n unit, cadence ≠ .every n unit) (last : Option Int) (now : Int) :
    ∃ next, nextRunAt schedule last now = some next ∧ now < next := by
  cases cadence with
  | hourly =>
    have htrim : trim schedule = "@hourly" := hwritten
    exact ⟨nextBoundary now (60 * 60 * 1000), by simp [nextRunAt, htrim], lt_nextBoundary now (by omega)⟩
  | daily =>
    have htrim : trim schedule = "@daily" := hwritten
    exact ⟨nextBoundary now (24 * 60 * 60 * 1000), by simp [nextRunAt, htrim], lt_nextBoundary now (by omega)⟩
  | weekly =>
    have htrim : trim schedule = "@weekly" := hwritten
    exact ⟨nextWeeklyBoundary now, by simp [nextRunAt, htrim], lt_nextWeeklyBoundary now⟩
  | every n unit => exact absurd rfl (hboundary n unit)

theorem nextRunAt_every {n : Nat}
    (hwritten : (Cadence.every n unit).WrittenAs schedule) (last : Option Int) (now : Int) :
    nextRunAt schedule last now =
      if everyStepMs n unit ≤ 0 then none else some (last.elim now fun l => l + everyStepMs n unit) := by
  obtain ⟨spaces, digits, hspaces, hblank, hdigits, hall, rfl, htext⟩ := hwritten
  have hother : ∀ text : String, text.toList.take 2 ≠ ['@', 'e'] → trim schedule ≠ text := by
    intro text hne heq
    rw [← heq, htext] at hne
    exact hne rfl
  rw [nextRunAt, if_neg (hother _ (by decide)), if_neg (hother _ (by decide)), if_neg (hother _ (by decide)), nextEveryRunAt,
    htext, matchEvery_written unit hspaces hblank hdigits hall]
  cases last <;> rfl

end

section

variable (tick : Tick)

def decided (rec : PipelineRecord) : Bool :=
  match rec.schedule with
  | none | some "" => false
  | some schedule => (nextRunAt schedule rec.lastAt tick.now.ms).any fun next => next ≤ tick.now.ms

def beyondDates (rec : PipelineRecord) : Bool :=
  rec.schedule.any fun schedule =>
    (nextRunAt schedule (some tick.now.ms) tick.now.ms).any fun next => (Date.toISOString next).isNone

variable {tick}

theorem names_writeLastRun (name : String) (at_ : Instant) (records : List PipelineRecord) :
    (writeLastRun name at_ records).map PipelineRecord.name = records.map PipelineRecord.name := by
  unfold writeLastRun
  rw [map_map]
  apply map_congr_left
  intro rec _
  dsimp only [Function.comp_apply]
  split <;> rfl

variable {s : TickState} {rec : PipelineRecord} {schedule : String}

/-- Firing runs the record, unless the next run cannot be written as a date. -/
theorem fireScheduledRun_cases (hfree : s.scheduler.inFlight = []) (hschedule : rec.schedule = some schedule) :
    (beyondDates tick rec = false ∧ ∃ s', fireScheduledRun rec schedule tick s = .ok s' ∧
      s'.ran = s.ran ++ [rec.name] ∧ s'.scheduler.inFlight = [] ∧
      s'.scheduler.records.map PipelineRecord.name = s.scheduler.records.map PipelineRecord.name) ∨
    (beyondDates tick rec = true ∧ ∃ s', fireScheduledRun rec schedule tick s = .error s' ∧ s'.ran = s.ran) := by
  have hrecorded : ∀ t : TickState, t.scheduler.inFlight = [rec.name] →
      (runAndRecord rec.name tick t).ran = t.ran ++ [rec.name] ∧
      (runAndRecord rec.name tick t).scheduler.inFlight = [] ∧
      (runAndRecord rec.name tick t).scheduler.records.map PipelineRecord.name =
        t.scheduler.records.map PipelineRecord.name := by
    intro t ht
    refine ⟨rfl, by simp [runAndRecord, ht], ?_⟩
    unfold runAndRecord
    cases tick.recorded rec.name with
    | none => rfl
    | some at_ => exact names_writeLastRun ..
  unfold beyondDates fireScheduledRun
  rw [hschedule]
  cases hnext : nextRunAt schedule (some tick.now.ms) tick.now.ms with
  | none => exact .inl ⟨by simp [hnext], _, rfl, hrecorded _ (by simp [appendSchedulerEntry, hfree])⟩
  | some next =>
    cases hdate : Date.toISOString next with
    | none =>
      simp only [Option.map_some, hdate]
      exact .inr ⟨by simp [hnext, hdate], _, rfl, rfl⟩
    | some text =>
      simp only [Option.map_some, hdate]
      exact .inl ⟨by simp [hnext, hdate], _, rfl, hrecorded _ (by simp [appendSchedulerEntry, hfree])⟩

theorem decided_eq (hschedule : rec.schedule = some schedule) (hempty : schedule ≠ "") : decided tick rec =
      (nextRunAt schedule rec.lastAt tick.now.ms).any fun next => next ≤ tick.now.ms := by
  unfold decided
  rw [hschedule]
  split <;> simp_all

theorem tickRecord_eq (hschedule : rec.schedule = some schedule) (hempty : schedule ≠ "") : tickRecord tick s rec =
      processScheduledRecord rec schedule tick
        { s with report := { s.report with considered := s.report.considered + 1 } } := by
  unfold tickRecord
  rw [hschedule]
  split <;> simp_all

theorem tickRecord_cases (tick : Tick) (rec : PipelineRecord) (hfree : s.scheduler.inFlight = []) :
    (decided tick rec = false ∧ ∃ s', tickRecord tick s rec = .ok s' ∧ s'.ran = s.ran ∧
      s'.scheduler.inFlight = [] ∧ s'.scheduler.records = s.scheduler.records) ∨
    (decided tick rec = true ∧ beyondDates tick rec = false ∧ ∃ s', tickRecord tick s rec = .ok s' ∧
      s'.ran = s.ran ++ [rec.name] ∧ s'.scheduler.inFlight = [] ∧
      s'.scheduler.records.map PipelineRecord.name = s.scheduler.records.map PipelineRecord.name) ∨
    (decided tick rec = true ∧ beyondDates tick rec = true ∧ ∃ s', tickRecord tick s rec = .error s' ∧
      s'.ran = s.ran) := by
  cases hschedule : rec.schedule with
  | none => exact .inl ⟨by simp [decided, hschedule], s, by simp [tickRecord, hschedule], rfl, hfree, rfl⟩
  | some schedule =>
    by_cases hempty : schedule = ""
    · rw [hempty] at hschedule
      exact .inl ⟨by simp [decided, hschedule], s, by simp [tickRecord, hschedule], rfl, hfree, rfl⟩
    rw [decided_eq hschedule hempty, tickRecord_eq hschedule hempty, processScheduledRecord]
    cases hnext : nextRunAt schedule rec.lastAt tick.now.ms with
    | none => exact .inl ⟨rfl, _, rfl, rfl, hfree, rfl⟩
    | some next =>
      by_cases hlater : next > tick.now.ms
      · simp only [hlater, if_true]
        exact .inl ⟨by simpa using hlater, _, rfl, rfl, hfree, rfl⟩
      have hdecided : (some next).any (fun next => decide (next ≤ tick.now.ms)) = true := by
        simpa using hlater
      simp only [hlater, if_false, hfree, not_mem_nil, hdecided, true_and, Bool.true_eq_false, false_and,
        false_or]
      exact fireScheduledRun_cases hfree hschedule

theorem foldlM_tickRecord (records : List PipelineRecord) (hfree : s.scheduler.inFlight = []) :
    (endOf (records.foldlM (tickRecord tick) s)).ran = s.ran ++
      ((records.takeWhile fun rec => !(decided tick rec && beyondDates tick rec)).filter (decided tick)).map
        PipelineRecord.name ∧
    ∀ s', records.foldlM (tickRecord tick) s = .ok s' → s'.scheduler.inFlight = [] ∧
      s'.scheduler.records.map PipelineRecord.name = s.scheduler.records.map PipelineRecord.name := by
  induction records generalizing s with
  | nil =>
    refine ⟨by simp [endOf, pure, Except.pure], ?_⟩
    intro s' heq
    cases heq
    exact ⟨hfree, rfl⟩
  | cons rec records ih =>
    rw [foldlM_cons]
    rcases tickRecord_cases tick rec hfree with
      ⟨hdecided, t, ht, hran, hfree', hrecords⟩ | ⟨hdecided, hbeyond, t, ht, hran, hfree', hrecords⟩ |
      ⟨hdecided, hbeyond, t, ht, hran⟩
    · obtain ⟨hrest, hkeep⟩ := ih hfree'
      rw [ht]
      change (endOf (records.foldlM (tickRecord tick) t)).ran = _ ∧
        ∀ s', records.foldlM (tickRecord tick) t = .ok s' → _
      refine ⟨?_, fun s' heq => ?_⟩
      · simpa [hdecided, hran] using hrest
      · simpa [hrecords] using hkeep s' heq
    · obtain ⟨hrest, hkeep⟩ := ih hfree'
      rw [ht]
      change (endOf (records.foldlM (tickRecord tick) t)).ran = _ ∧
        ∀ s', records.foldlM (tickRecord tick) t = .ok s' → _
      refine ⟨?_, fun s' heq => ?_⟩
      · simpa [hdecided, hbeyond, hran] using hrest
      · simpa [hrecords] using hkeep s' heq
    rw [ht]
    refine ⟨?_, fun s' heq => by cases heq⟩
    simp [hdecided, hbeyond, endOf, bind, Except.bind, hran]

end

/-- Between ticks nothing is in flight, and the pipelines are listed under distinct names. -/
structure Scheduler.Idle (scheduler : Scheduler) : Prop where
  inFlight : scheduler.inFlight = []
  distinct : (scheduler.records.map PipelineRecord.name).Nodup

variable {scheduler : Scheduler}

theorem Scheduler.Idle.step {next : Scheduler} {tick : Tick} (hidle : scheduler.Idle)
    (hstep : schedulerStep scheduler tick = some next) : next.Idle := by
  unfold schedulerStep at hstep
  split at hstep
  case h_1 s hs =>
    cases hstep
    obtain ⟨hfree, hnames⟩ := (foldlM_tickRecord scheduler.records hidle.inFlight).2 s hs
    exact ⟨hfree, hnames ▸ hidle.distinct⟩
  case h_2 => cases hstep

theorem mem_ranAt {tick : Tick} {rec : PipelineRecord} (hidle : scheduler.Idle)
    (hmem : rec ∈ scheduler.records) : rec.name ∈ ranAt scheduler tick ↔
      rec ∈ scheduler.records.takeWhile (fun rec => !(decided tick rec && beyondDates tick rec)) ∧
        decided tick rec = true := by
  unfold ranAt runSchedulerTick
  rw [(foldlM_tickRecord scheduler.records hidle.inFlight).1, nil_append, mem_map]
  constructor
  · rintro ⟨other, hother, hname⟩
    obtain ⟨hinitial, hdecided⟩ := mem_filter.mp hother
    have hlisted : other ∈ scheduler.records := (takeWhile_sublist _).subset hinitial
    obtain rfl : other = rec := inj_on_of_nodup_map hidle.distinct hlisted hmem hname
    exact ⟨hinitial, hdecided⟩
  · rintro ⟨hinitial, hdecided⟩
    exact ⟨rec, mem_filter.mpr ⟨hinitial, hdecided⟩, rfl⟩

section

variable {tick : Tick} {rec : PipelineRecord} {schedule : String}

theorem WrittenAs.ne_empty {cadence : Cadence} (hwritten : cadence.WrittenAs schedule) : schedule ≠ "" := by
  rintro rfl
  have htrim : trim "" = "" := by decide
  cases cadence with
  | every n unit =>
    obtain ⟨spaces, digits, -, -, -, -, -, htext⟩ := hwritten
    rw [htrim] at htext
    simp at htext
  | hourly | daily | weekly =>
    have heq := htrim.symm.trans hwritten
    simp at heq

theorem everyStepMs_pos (n : Nat) (unit : EveryUnit) : 0 < everyStepMs (n + 1) unit := by
  cases unit <;> simp only [everyStepMs] <;> omega

theorem everyStepMs_zero (unit : EveryUnit) : everyStepMs 0 unit = 0 := by
  cases unit <;> rfl

theorem not_decided {cadence : Cadence} (hschedule : rec.schedule = some schedule)
    (hwritten : cadence.WrittenAs schedule) (hcadence : ∀ n unit, cadence ≠ .every (n + 1) unit) :
    decided tick rec = false := by
  rw [decided_eq hschedule (WrittenAs.ne_empty hwritten)]
  by_cases hevery : ∃ n unit, cadence = .every n unit
  · obtain ⟨n, unit, rfl⟩ := hevery
    cases n with
    | zero =>
      rw [nextRunAt_every hwritten, everyStepMs_zero, if_pos (Int.le_refl 0)]
      rfl
    | succ n => exact absurd rfl (hcadence n unit)
  obtain ⟨next, hnext, hlater⟩ := nextRunAt_boundary hwritten (fun n unit heq => hevery ⟨n, unit, heq⟩)
    rec.lastAt tick.now.ms
  rw [hnext]
  simpa using hlater

theorem decided_every {n : Nat} {unit : EveryUnit} (hschedule : rec.schedule = some schedule)
    (hwritten : (Cadence.every (n + 1) unit).WrittenAs schedule) :
    decided tick rec = true ↔ (Cadence.every (n + 1) unit).Due rec.lastAt tick.now.ms := by
  have hpos := everyStepMs_pos n unit
  rw [decided_eq hschedule (WrittenAs.ne_empty hwritten), nextRunAt_every hwritten, if_neg (by omega)]
  cases hlast : rec.lastAt with
  | none => simp [Cadence.Due]
  | some last => simp [Cadence.Due]

theorem beyondDates_every {n : Nat} {unit : EveryUnit} (hschedule : rec.schedule = some schedule)
    (hwritten : (Cadence.every (n + 1) unit).WrittenAs schedule) :
    beyondDates tick rec = false ↔ tick.now.ms + everyStepMs (n + 1) unit ≤ Date.maxTime := by
  have hpos := everyStepMs_pos n unit
  have hlow := tick.now.low
  unfold beyondDates
  rw [hschedule, Option.any_some, nextRunAt_every hwritten, if_neg (by omega)]
  simp only [Option.elim_some, Option.any_some, Date.toISOString]
  split
  · simp
    omega
  · simp
    omega

theorem every_of_decided (hdecided : decided tick rec = true) :
    ∃ schedule n unit, rec.schedule = some schedule ∧ (Cadence.every (n + 1) unit).WrittenAs schedule := by
  cases hschedule : rec.schedule with
  | none => simp [decided, hschedule] at hdecided
  | some schedule =>
    have hboundary : ∀ cadence : Cadence, (∀ n unit, cadence ≠ .every (n + 1) unit) → ¬ cadence.WrittenAs schedule := by
      intro cadence hcadence hwritten
      rw [not_decided hschedule hwritten hcadence] at hdecided
      cases hdecided
    have hempty : schedule ≠ "" := by
      rintro rfl
      simp [decided, hschedule] at hdecided
    have hhourly : trim schedule ≠ "@hourly" := hboundary .hourly nofun
    have hdaily : trim schedule ≠ "@daily" := hboundary .daily nofun
    have hweekly : trim schedule ≠ "@weekly" := hboundary .weekly nofun
    rw [decided_eq hschedule hempty, nextRunAt, if_neg hhourly, if_neg hdaily, if_neg hweekly,
      nextEveryRunAt] at hdecided
    cases hmatch : matchEvery (trim schedule).toList with
    | none => simp [hmatch] at hdecided
    | some found =>
      obtain ⟨n, unit⟩ := found
      have hwritten := written_of_matchEvery hmatch
      cases n with
      | zero => exact absurd hwritten (hboundary _ (by simp))
      | succ n => exact ⟨schedule, n, unit, rfl, hwritten⟩

end

theorem firesOncePerWindow_iff (hidle : scheduler.Idle) (tick : Tick) :
    FiresOncePerWindow scheduler tick ↔ AllServed scheduler tick := by
  constructor
  · intro hfires rec hmem schedule cadence hschedule hwritten
    have hran := hfires rec hmem schedule cadence hschedule hwritten
    rw [mem_ranAt hidle hmem] at hran
    by_cases hevery : ∃ n unit, cadence = .every (n + 1) unit
    · obtain ⟨n, unit, rfl⟩ := hevery
      intro hdue
      obtain ⟨hinitial, hdecided⟩ := hran.mpr hdue
      have hwithin := mem_takeWhile_imp hinitial
      rw [hdecided, Bool.true_and, Bool.not_eq_true'] at hwithin
      exact (beyondDates_every hschedule hwritten).mp hwithin
    have hcadence : ∀ n unit, cadence ≠ .every (n + 1) unit := fun n unit heq => hevery ⟨n, unit, heq⟩
    have hnot : ¬ cadence.Due rec.lastAt tick.now.ms := by
      intro hdue
      have hdecided := (hran.mpr hdue).2
      rw [not_decided hschedule hwritten hcadence] at hdecided
      cases hdecided
    unfold Cadence.Served
    split
    · exact absurd rfl (hcadence _ _)
    · exact hnot
  intro hserved rec hmem schedule cadence hschedule hwritten
  -- no record ends the tick, so that all of them are reached
  have hall : scheduler.records.takeWhile (fun rec => !(decided tick rec && beyondDates tick rec)) =
      scheduler.records := by
    apply takeWhile_eq_self_iff.mpr
    intro other hother
    cases hdecided : decided tick other with
    | false => rfl
    | true =>
      obtain ⟨text, n, unit, htext, hevery⟩ := every_of_decided hdecided
      have hdue := (decided_every htext hevery).mp hdecided
      rw [(beyondDates_every htext hevery).mpr (hserved other hother text _ htext hevery hdue)]
      rfl
  rw [mem_ranAt hidle hmem, hall, and_iff_right hmem]
  by_cases hevery : ∃ n unit, cadence = .every (n + 1) unit
  · obtain ⟨n, unit, rfl⟩ := hevery
    exact decided_every hschedule hwritten
  have hcadence : ∀ n unit, cadence ≠ .every (n + 1) unit := fun n unit heq => hevery ⟨n, unit, heq⟩
  rw [not_decided hschedule hwritten hcadence]
  have hnot := hserved rec hmem schedule cadence hschedule hwritten
  unfold Cadence.Served at hnot
  split at hnot
  · exact absurd rfl (hcadence _ _)
  · exact ⟨fun h => absurd h Bool.false_ne_true, fun hdue => absurd hdue hnot⟩

/-- The pipelines of one directory, each under its own name. -/
structure Pipelines where
  records : List PipelineRecord
  distinct : (records.map PipelineRecord.name).Nodup

def Pipelines.start (pipelines : Pipelines) : Scheduler := { records := pipelines.records }

theorem Pipelines.start_idle (pipelines : Pipelines) : pipelines.start.Idle := ⟨rfl, pipelines.distinct⟩

/-- In every sequence of ticks the pipelines run once for each window exactly where each tick serves
every cadence. -/
theorem scheduler_fires_iff_served (pipelines : Pipelines) (ticks : List Tick) :
    Along schedulerStep FiresOncePerWindow pipelines.start ticks ↔
      Along schedulerStep AllServed pipelines.start ticks :=
  Along.congr (fun _ _ _ hidle hstep => Scheduler.Idle.step hidle hstep)
    (fun _ tick hidle => firesOncePerWindow_iff hidle tick) pipelines.start_idle ticks

section

def sampleInstant (ms : Nat) (h : (ms : Int) ≤ Date.maxTime) : Instant :=
  ⟨ms, by unfold Date.maxTime; omega, h⟩

def hourlyPipelines : Pipelines where
  records := [{ name := "docs", schedule := some "@hourly", lastRun := some (.instant 0) }]
  distinct := by simp

def hourLater : Tick where
  now := sampleInstant 3600000 (by decide)
  recorded _ := none

theorem hourly_pipeline_not_fired :
    ¬ Along schedulerStep FiresOncePerWindow hourlyPipelines.start [hourLater] := by
  intro halong
  have hran : ranAt hourlyPipelines.start hourLater = [] := by decide +kernel
  have hfires := halong.1 _ mem_cons_self "@hourly" .hourly rfl (show trim "@hourly" = _ by decide +kernel)
  rw [hran] at hfires
  apply not_mem_nil (hfires.mpr ?_)
  exact ⟨3600000, by decide, by decide, by decide⟩

end

end llamactl.rag
