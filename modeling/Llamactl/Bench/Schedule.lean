import Llamactl.Js.Number

open js

namespace llamactl.bench

inductive Mode where
  | auto
  | text
  | vision
  deriving DecidableEq

/-- What `BenchScheduleSchema` accepts. -/
structure BenchSchedule where
  id : String
  node : String
  rel : String
  mode : Mode := .auto
  intervalSeconds : Nat
  enabled : Bool := true
  lastRunAt : Option DateText := none
  lastError : Option String := none
  id_nonempty : id ≠ ""
  node_nonempty : node ≠ ""
  rel_nonempty : rel ≠ ""
  interval_range : 60 ≤ intervalSeconds ∧ intervalSeconds ≤ 30 * 24 * 3600
  deriving DecidableEq

/-- The patch of a `RunOutcome`. -/
structure RunPatch where
  lastRunAt : DateText
  lastError : Option String
  deriving DecidableEq

/-- The patches that are made. -/
inductive Patch where
  | outcome (patch : RunPatch)
  | enabled (enabled : Bool)
  deriving DecidableEq

def BenchSchedule.patch (s : BenchSchedule) : Patch → BenchSchedule
  | .outcome patch => { s with lastRunAt := some patch.lastRunAt, lastError := patch.lastError }
  | .enabled enabled => { s with enabled }

def addSchedule (schedules : List BenchSchedule) (entry : BenchSchedule) :
    Except String (List BenchSchedule) :=
  if schedules.any (·.id == entry.id) then .error s!"schedule with id '{entry.id}' already exists"
  else .ok (schedules ++ [{ entry with lastRunAt := none, lastError := none }])

def removeSchedule (schedules : List BenchSchedule) (id : String) : List BenchSchedule :=
  schedules.filter (·.id != id)

def updateSchedule (schedules : List BenchSchedule) (id : String) (patch : Patch) : List BenchSchedule :=
  schedules.map fun s => if s.id = id then s.patch patch else s

/-- What `recordRunOutcome` saves of the list it loaded: nothing when the schedule was removed
or disabled. -/
def recordRunOutcome (fresh : List BenchSchedule) (id : String) (patch : RunPatch) :
    Option (List BenchSchedule) :=
  match fresh.find? (·.id == id) with
  | some current => if current.enabled then some (updateSchedule fresh id (.outcome patch)) else none
  | none => none

def isDue (schedule : BenchSchedule) (now : Int) : Bool :=
  schedule.enabled &&
    match schedule.lastRunAt.bind Date.parse with
    | none => true
    | some last => schedule.intervalSeconds * 1000 ≤ now - last

/-- The commands that edit the store. -/
inductive Edit where
  | add (entry : BenchSchedule)
  | remove (id : String)
  | toggle (id : String) (enabled : Bool)
  deriving DecidableEq

/-- What a command saves of the list it loaded. -/
def Edit.apply (schedules : List BenchSchedule) : Edit → Except String (List BenchSchedule)
  | .add entry => addSchedule schedules entry
  | .remove id => .ok (removeSchedule schedules id)
  | .toggle id enabled => .ok (updateSchedule schedules id (.enabled enabled))

/-- The schedule without its run fields: what the commands decide. -/
def BenchSchedule.settings (s : BenchSchedule) : BenchSchedule :=
  { s with lastRunAt := none, lastError := none }

def settings (schedules : List BenchSchedule) : List BenchSchedule := schedules.map (·.settings)

@[simp] theorem settings_outcome (s : BenchSchedule) (patch : RunPatch) :
    (s.patch (.outcome patch)).settings = s.settings := rfl

theorem updateSchedule_settings (schedules : List BenchSchedule) (id : String) (patch : RunPatch) :
    settings (updateSchedule schedules id (.outcome patch)) = settings schedules := by
  unfold settings updateSchedule
  rw [List.map_map]
  apply List.map_congr_left
  intro s _
  rw [Function.comp_apply]
  split
  · exact settings_outcome s patch
  · rfl

theorem recordRunOutcome_settings {fresh saved : List BenchSchedule} {id : String} {patch : RunPatch}
    (h : recordRunOutcome fresh id patch = some saved) : settings saved = settings fresh := by
  unfold recordRunOutcome at h
  split at h
  · rw [Option.ite_none_right_eq_some] at h
    obtain ⟨-, h⟩ := h
    obtain rfl := Option.some.inj h
    exact updateSchedule_settings fresh id patch
  · cases h

end llamactl.bench
