import Llamactl.Fleet.Loop.Tick
import Llamactl.Fleet.Migration.Records
import Mathlib.Data.List.DropRight

open effect List collections js

namespace llamactl.fleet.loop

open migration

def dedupWindowMax : Nat := 256

/-- The ids the writer has seen, as a set and, oldest first, as a queue. -/
structure BoundedIdSet where
  ids : List String := []
  ring : List String := []

def BoundedIdSet.has (seen : BoundedIdSet) (id : String) : Bool := seen.ids.contains id

def BoundedIdSet.add (seen : BoundedIdSet) (id : String) : BoundedIdSet :=
  if seen.has id then seen
  else
    let ring := seen.ring ++ [id]
    let ids := seen.ids ++ [id]
    if ring.length > dedupWindowMax then
      match ring with
      | [] => ⟨ids, []⟩
      | evicted :: rest => ⟨ids.erase evicted, rest⟩
    else ⟨ids, ring⟩

/-- The deduplicating writer of the loop together with the journal behind it. -/
structure DedupWriter where
  seen : BoundedIdSet := {}
  journal : List FleetJournalEntry

def DedupWriter.write (writer : DedupWriter) (entry : FleetJournalEntry) : DedupWriter :=
  match entry with
  | .proposal proposal =>
    if writer.seen.has proposal.proposalId then writer
    else ⟨writer.seen.add proposal.proposalId, writer.journal ++ [entry]⟩
  | _ => { writer with journal := writer.journal ++ [entry] }

def proposedId : FleetJournalEntry → Option String
  | .proposal proposal => some proposal.proposalId
  | _ => none

section

/-- An id passes a window of the given size when it is not among the last that passed. -/
def passOne (size : Nat) (passed : List String) (id : String) : List String :=
  if id ∈ passed.rtake size then passed else passed ++ [id]

/-- The ids that pass a window of the given size, in turn. -/
def passing (size : Nat) (ids : List String) : List String := ids.foldl (passOne size) []

/-- No id passes again while it is one of the last that passed. -/
def SpacedBy (size : Nat) (passed : List String) : Prop :=
  ∀ (i j : Nat) (id : String), i < j → passed[i]? = some id → passed[j]? = some id → i + size < j

/-- The set and the queue of the writer hold the last ids that passed, each once. -/
structure HoldsLast (size : Nat) (seen : BoundedIdSet) (passed : List String) : Prop where
  ring : seen.ring = passed.rtake size
  ids : seen.ids = seen.ring
  nodup : seen.ring.Nodup

variable {size : Nat} {seen : BoundedIdSet} {passed : List String}

theorem HoldsLast.has_iff (h : HoldsLast size seen passed) (id : String) :
    seen.has id = true ↔ id ∈ passed.rtake size := by
  rw [BoundedIdSet.has, h.ids, h.ring, contains_iff_mem]

theorem HoldsLast.add (h : HoldsLast dedupWindowMax seen passed) (id : String) :
    HoldsLast dedupWindowMax (seen.add id) (passOne dedupWindowMax passed id) := by
  unfold BoundedIdSet.add passOne
  generalize dedupWindowMax = size at h ⊢
  by_cases hseen : seen.has id = true
  · rwa [if_pos hseen, if_pos ((h.has_iff id).mp hseen)]
  have hnew := mt (h.has_iff id).mpr hseen
  rw [if_neg hseen, if_neg hnew]
  obtain ⟨hring, hids, hnodup⟩ := h
  have hlast : seen.ring ++ [id] = (passed ++ [id]).drop (passed.length - size) := by
    rw [drop_append_of_le_length (Nat.sub_le _ _), hring, List.rtake]
  have hlength : seen.ring.length = passed.length - (passed.length - size) := by
    rw [hring, List.rtake, length_drop]
  have hdistinct : (seen.ring ++ [id]).Nodup := concat_eq_append ▸ hnodup.concat (hring ▸ hnew)
  rw [hids]
  simp only
  split
  next hfull =>
    split
    next hnil => simp at hnil
    next evicted rest hcons =>
      rw [hcons] at hdistinct hlast
      refine ⟨?_, by simp [hcons], hdistinct.of_cons⟩
      rw [length_append, length_singleton] at hfull
      have hdrop := congrArg List.tail hlast
      rw [tail_cons, tail_drop] at hdrop
      have hplace : passed.length + 1 - size = passed.length - size + 1 := by omega
      rw [hdrop, List.rtake, length_append, length_singleton, hplace]
  next hroom =>
    rw [length_append, length_singleton] at hroom
    have hplace : passed.length + 1 - size = passed.length - size := by omega
    refine ⟨?_, rfl, hdistinct⟩
    rw [hlast, List.rtake, length_append, length_singleton, hplace]

theorem SpacedBy.pass (h : SpacedBy size passed) (id : String) : SpacedBy size (passOne size passed id) := by
  unfold passOne
  split
  · exact h
  next hnew =>
    intro i j other hij hi hj
    have hlt : j < passed.length + 1 := by simpa using (List.getElem?_eq_some_iff.mp hj).1
    rw [getElem?_append_left (by omega)] at hi
    rcases Nat.lt_or_ge j passed.length with hold | hlast
    · rw [getElem?_append_left hold] at hj
      exact h i j other hij hi hj
    obtain rfl : j = passed.length := by omega
    simp only [getElem?_concat_length, Option.some.injEq] at hj
    subst hj
    by_contra hnear
    refine hnew (mem_iff_getElem?.mpr ⟨i - (passed.length - size), ?_⟩)
    rw [List.rtake, getElem?_drop, ← hi]
    congr 1
    omega

theorem DedupWriter.foldl_window (entries : List FleetJournalEntry) (writer : DedupWriter) {before : List String}
    (h : HoldsLast dedupWindowMax writer.seen passed) (hspaced : SpacedBy dedupWindowMax passed)
    (hjournal : writer.journal.filterMap proposedId = before ++ passed) :
    HoldsLast dedupWindowMax (entries.foldl DedupWriter.write writer).seen
        ((entries.filterMap proposedId).foldl (passOne dedupWindowMax) passed) ∧
      SpacedBy dedupWindowMax ((entries.filterMap proposedId).foldl (passOne dedupWindowMax) passed) ∧
      (entries.foldl DedupWriter.write writer).journal.filterMap proposedId =
        before ++ (entries.filterMap proposedId).foldl (passOne dedupWindowMax) passed := by
  induction entries generalizing writer passed with
  | nil => exact ⟨h, hspaced, hjournal⟩
  | cons entry rest ih =>
    rw [foldl_cons]
    cases entry with
    | proposal proposal =>
      rw [filterMap_cons_some (f := proposedId) (a := .proposal proposal) rfl, foldl_cons]
      have hadd := h.add proposal.proposalId
      refine ih _ ?_ (hspaced.pass proposal.proposalId) ?_
      · unfold DedupWriter.write
        dsimp only
        split
        next hseen =>
          rwa [BoundedIdSet.add, if_pos hseen] at hadd
        · exact hadd
      unfold DedupWriter.write passOne
      dsimp only
      split
      next hseen =>
        rw [if_pos ((h.has_iff _).mp hseen), hjournal]
      next hunseen =>
        rw [if_neg (mt (h.has_iff _).mpr hunseen), filterMap_append, hjournal]
        simp [proposedId]
    | _ =>
      rw [filterMap_cons_none (f := proposedId) rfl]
      refine ih _ h hspaced ?_
      simp only [DedupWriter.write, filterMap_append, hjournal]
      exact append_nil _

/-- Whatever is written, the writer holds the last ids it has let through, as a set and as a queue; an id it
holds is not journaled again, and one that has left the window is no longer held. -/
theorem dedupWriter_window (journal entries : List FleetJournalEntry) :
    let writer := entries.foldl DedupWriter.write { journal }
    let passed := passing dedupWindowMax (entries.filterMap proposedId)
    HoldsLast dedupWindowMax writer.seen passed ∧ writer.seen.ring.length ≤ dedupWindowMax ∧
    writer.journal.filterMap proposedId = journal.filterMap proposedId ++ passed ∧
    SpacedBy dedupWindowMax passed ∧ ∀ id, writer.seen.has id = true ↔ id ∈ passed.rtake dedupWindowMax := by
  have hempty : HoldsLast dedupWindowMax {} [] := ⟨rfl, rfl, .nil⟩
  obtain ⟨hholds, hspaced, hjournal⟩ := DedupWriter.foldl_window entries { journal } hempty
    (fun _ _ _ _ hi => by simp at hi) (append_nil _).symm
  refine ⟨hholds, ?_, hjournal, hspaced, hholds.has_iff⟩
  rw [hholds.ring, List.rtake, length_drop]
  omega

end

def writtenEntry : MEvent → Option FleetJournalEntry
  | ⟨.writeJournalEntry entry, _⟩ => some entry
  | _ => none

/-- The writer after a run with the given calls. -/
def DedupWriter.after (writer : DedupWriter) (trace : List MEvent) : DedupWriter :=
  (trace.filterMap writtenEntry).foldl DedupWriter.write writer

/-- The ids under which the migration controller journals executions. -/
def FromMigration (id : String) : Prop := ∃ rest, id = "move-" ++ rest ∨ id = "evict-" ++ rest

theorem fromMigration_move (workload : String) (ms : Int) :
    FromMigration s!"move-{workload}-{ms}" := by
  refine ⟨workload ++ "-" ++ toString ms, .inl ?_⟩
  simp [toString, String.append_assoc]

theorem fromMigration_evict (workload : String) (ts : DateText) :
    FromMigration (evictProposalId workload ts) := by
  refine ⟨workload ++ "-" ++ ts.text, .inr ?_⟩
  simp [evictProposalId, toString, String.append_assoc]

/-- Ids that begin with different letters differ. -/
theorem append_ne_of_first {a b : Char} {as bs : List Char} (hne : a ≠ b) (rest rest' : String) :
    String.ofList (a :: as) ++ rest ≠ String.ofList (b :: bs) ++ rest' := by
  intro heq
  have hlist := congrArg String.toList heq
  simp only [String.toList_append, String.toList_ofList, cons_append, List.cons.injEq] at hlist
  exact hne hlist.1

theorem pressureProposalId_eq (node : String) (ts : DateText) :
    ∃ rest, pressureProposalId node ts = "pressure-" ++ rest :=
  ⟨node ++ "-" ++ ts.text, by simp [pressureProposalId, toString, String.append_assoc]⟩

/-- The id of a tick's eviction is none the controller journals under. -/
theorem not_fromMigration_pressure (node : String) (ts : DateText) :
    ¬FromMigration (pressureProposalId node ts) := by
  obtain ⟨rest, hid⟩ := pressureProposalId_eq node ts
  rintro ⟨rest', hmove | hevict⟩
  · exact append_ne_of_first (by decide) rest rest' (hid.symm.trans hmove)
  · exact append_ne_of_first (by decide) rest rest' (hid.symm.trans hevict)

theorem degradationProposalId_ne (workload node : String) (ts ts' : DateText) :
    degradationProposalId workload ts ≠ pressureProposalId node ts' := by
  obtain ⟨rest, hid⟩ := pressureProposalId_eq node ts'
  have hdegradation : degradationProposalId workload ts =
      "degradation-" ++ (workload ++ "-" ++ ts.text) := by
    simp [degradationProposalId, toString, String.append_assoc]
  rw [hid, hdegradation]
  exact append_ne_of_first (by decide) _ _

end llamactl.fleet.loop
