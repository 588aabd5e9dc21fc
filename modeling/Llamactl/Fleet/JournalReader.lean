import Llamactl.Js.Utf8
import Mathlib.Data.List.TakeWhile

open js List

namespace llamactl.fleet.journalReader

/-! `journal-reader.ts`: the lines of a journal, read piece by piece. -/

def MAX_JOURNAL_LINE_BYTES : Nat := 8 * 1024 * 1024

def READ_BYTES : Nat := 64 * 1024

structure JournalLine where
  parts : List (List UInt8) := []
  bytes : Nat := 0
  oversized : Bool := false

namespace JournalLine

/-- `onOversize` is called. -/
def overflows (line : JournalLine) (segment : List UInt8) : Bool :=
  !line.oversized && MAX_JOURNAL_LINE_BYTES < line.bytes + segment.length

def consume (line : JournalLine) (segment : List UInt8) (complete : Bool) : JournalLine × Option (List Nat) :=
  let line := if line.overflows segment then { line with oversized := true, parts := [] } else line
  if line.oversized then (if complete then {} else line, none)
  else if !complete then
    ({ line with parts := line.parts ++ [segment], bytes := line.bytes + segment.length }, none)
  else ({}, some (decodeUtf8 (line.parts ++ [segment]).flatten))

end JournalLine

/-- The line that is read, the lines that were yielded, and the calls of `onOversize`, none of which threw. -/
structure Scan where
  line : JournalLine := {}
  lines : List (List Nat) := []
  oversizes : Nat := 0

def Scan.consume (scan : Scan) (segment : List UInt8) (complete : Bool) : Scan where
  line := (scan.line.consume segment complete).1
  lines := scan.lines ++ (scan.line.consume segment complete).2.toList
  oversizes := scan.oversizes + if scan.line.overflows segment then 1 else 0

/-- The loop over one read, from `start` on. -/
def scanChunk (scan : Scan) (chunk : List UInt8) : Scan :=
  if chunk = [] then scan
  else
    match _h : chunk.dropWhile (· ≠ 10) with
    | [] => scan.consume (chunk.takeWhile (· ≠ 10)) false
    | _ :: rest => scanChunk (scan.consume (chunk.takeWhile (· ≠ 10)) true) rest
termination_by chunk.length
decreasing_by
  have hle := (dropWhile_suffix (p := (· ≠ 10)) (l := chunk)).length_le
  rw [_h] at hle
  exact hle

/-- The reads of a file, one behind the other. -/
structure Reads (content : List UInt8) where
  chunks : List (List UInt8)
  whole : chunks.flatten = content
  fits : ∀ chunk ∈ chunks, 0 < chunk.length ∧ chunk.length ≤ READ_BYTES

def readJournalLines {content : List UInt8} (reads : Reads content) : Scan :=
  (reads.chunks.foldl scanChunk {}).consume [] true

def yielded (lines : List (List UInt8)) : List (List Nat) :=
  (lines.filter fun line => line.length ≤ MAX_JOURNAL_LINE_BYTES).map decodeUtf8

def oversized (lines : List (List UInt8)) : Nat := lines.countP fun line => MAX_JOURNAL_LINE_BYTES < line.length

/-- The bytes of the line so far; of an oversized one they are forgotten, and it is counted. -/
def Pending (line : JournalLine) (read : List UInt8) : Prop :=
  if line.oversized then MAX_JOURNAL_LINE_BYTES < read.length
  else line.parts.flatten = read ∧ line.bytes = read.length ∧ read.length ≤ MAX_JOURNAL_LINE_BYTES

theorem pending_start : Pending {} [] := ⟨rfl, rfl, Nat.zero_le _⟩

variable {scan : Scan} {read : List UInt8}

/-- The calls of `onOversize` for the line that is read. -/
def counted (line : JournalLine) : Nat := if line.oversized then 1 else 0

theorem consume_part (segment : List UInt8) (h : Pending scan.line read) :
    Pending (scan.consume segment false).line (read ++ segment) ∧ (scan.consume segment false).lines = scan.lines ∧
      (scan.consume segment false).oversizes + counted scan.line =
        scan.oversizes + counted (scan.consume segment false).line := by
  cases hover : scan.line.oversized with
  | true =>
    simp only [Pending, hover, if_true] at h
    simp [Scan.consume, JournalLine.consume, JournalLine.overflows, Pending, counted, hover]
    omega
  | false =>
    simp only [Pending, hover, Bool.false_eq_true, if_false] at h
    obtain ⟨hparts, hbytes, hfits⟩ := h
    by_cases hlong : MAX_JOURNAL_LINE_BYTES < read.length + segment.length
    · simp [Scan.consume, JournalLine.consume, JournalLine.overflows, Pending, counted, hover, hbytes, hlong]
    · have hshort : read.length + segment.length ≤ MAX_JOURNAL_LINE_BYTES := by omega
      simp [Scan.consume, JournalLine.consume, JournalLine.overflows, Pending, counted, hover, hbytes, hlong, hparts, hshort]

theorem consume_line (segment : List UInt8) (h : Pending scan.line read) :
    (scan.consume segment true).line = {} ∧
      (scan.consume segment true).lines = scan.lines ++ yielded [read ++ segment] ∧
      (scan.consume segment true).oversizes + counted scan.line = scan.oversizes + oversized [read ++ segment] := by
  cases hover : scan.line.oversized with
  | true =>
    simp only [Pending, hover, if_true] at h
    have hlong : MAX_JOURNAL_LINE_BYTES < read.length + segment.length := by omega
    simp [Scan.consume, JournalLine.consume, JournalLine.overflows, yielded, oversized, counted, hover, hlong, Nat.not_le.mpr hlong]
  | false =>
    simp only [Pending, hover, Bool.false_eq_true, if_false] at h
    obtain ⟨hparts, hbytes, hfits⟩ := h
    by_cases hlong : MAX_JOURNAL_LINE_BYTES < read.length + segment.length
    · simp [Scan.consume, JournalLine.consume, JournalLine.overflows, yielded, oversized, counted, hover, hbytes, hlong,
        Nat.not_le.mpr hlong]
    have hshort : read.length + segment.length ≤ MAX_JOURNAL_LINE_BYTES := by omega
    simp [Scan.consume, JournalLine.consume, JournalLine.overflows, yielded, oversized, counted, hover, hbytes, hlong, hparts,
      hshort]

/-- What a scan has done of the lines up to a point, as what the lines from there on leave to be done. -/
structure Reaches (scan : Scan) (all : List UInt8) (next : Scan) (rest : List UInt8) : Prop where
  lines : scan.lines ++ yielded (all.splitOn 10) = next.lines ++ yielded (rest.splitOn 10)
  oversizes : scan.oversizes + oversized (all.splitOn 10) + counted next.line =
    next.oversizes + oversized (rest.splitOn 10) + counted scan.line

theorem yielded_cons (line : List UInt8) (lines : List (List UInt8)) :
    yielded (line :: lines) = yielded [line] ++ yielded lines := by
  simp [yielded, ← map_append, ← filter_append]

theorem oversized_cons (line : List UInt8) (lines : List (List UInt8)) :
    oversized (line :: lines) = oversized [line] + oversized lines := by
  rw [← singleton_append, oversized, countP_append]
  rfl

theorem scanChunk_reaches (chunk : List UInt8) (hplain : 10 ∉ read) (h : Pending scan.line read) :
    ∃ left, 10 ∉ left ∧ Pending (scanChunk scan chunk).line left ∧
      ∀ more, Reaches scan (read ++ chunk ++ more) (scanChunk scan chunk) (left ++ more) := by
  induction hlen : chunk.length using Nat.strongRecOn generalizing scan read chunk with
  | _ n ih =>
    have hsegment : 10 ∉ chunk.takeWhile (· ≠ 10) := fun hmem => by simpa using mem_takeWhile_imp hmem
    have hsplit := takeWhile_append_dropWhile (p := (· ≠ (10 : UInt8))) (l := chunk)
    rw [scanChunk]
    generalize chunk.takeWhile (· ≠ 10) = segment at hsegment hsplit
    split
    · subst chunk
      exact ⟨read, hplain, h, fun more => by simpa using ⟨rfl, rfl⟩⟩
    split
    · rename_i hnone
      rw [hnone, append_nil] at hsplit
      subst hsplit
      obtain ⟨hpending, hlines, hcount⟩ := consume_part segment h
      exact ⟨read ++ segment, by simp [hplain, hsegment], hpending, fun more => ⟨by rw [hlines], by omega⟩⟩
    rename_i mark rest hrest
    have hmark : mark = 10 := by
      have hhead := head?_dropWhile_not (· ≠ (10 : UInt8)) chunk
      rw [hrest] at hhead
      simpa using hhead
    rw [hrest, hmark] at hsplit
    obtain ⟨hfresh, hlines, hcount⟩ := consume_line segment h
    obtain ⟨left, hleft, hpending, hreaches⟩ := @ih rest.length (by rw [← hlen, ← hsplit]; simp; omega)
      (scan.consume segment true) [] rest (by simp) (by rw [hfresh]; exact pending_start) rfl
    refine ⟨left, hleft, hpending, fun more => ?_⟩
    have hall : (read ++ chunk ++ more).splitOn 10 = (read ++ segment) :: (rest ++ more).splitOn 10 := by
      rw [← splitOn_append_cons_self_of_not_mem (by simp [hplain, hsegment]), ← hsplit]
      simp
    obtain ⟨hdone, hcounted⟩ := hreaches more
    rw [nil_append] at hdone hcounted
    rw [hfresh] at hcounted
    have hnone : counted {} = 0 := rfl
    exact ⟨by rw [← hdone, hlines, hall, yielded_cons, append_assoc], by rw [hall, oversized_cons]; omega⟩

/-- However the reads cut the file, what is yielded are its lines, but for those that are too long. -/
theorem readJournalLines_lines {content : List UInt8} (reads : Reads content) :
    (readJournalLines reads).lines = yielded (content.splitOn 10) ∧
      (readJournalLines reads).oversizes = oversized (content.splitOn 10) := by
  have hchunks : ∀ (chunks : List (List UInt8)) (scan : Scan) (read : List UInt8), 10 ∉ read → Pending scan.line read →
      ∃ left, 10 ∉ left ∧ Pending (chunks.foldl scanChunk scan).line left ∧
        Reaches scan (read ++ chunks.flatten) (chunks.foldl scanChunk scan) left := by
    intro chunks
    induction chunks with
    | nil => exact fun scan read hplain h => ⟨read, hplain, h, by simpa using ⟨rfl, rfl⟩⟩
    | cons chunk chunks ih =>
      intro scan read hplain h
      obtain ⟨middle, hmiddle, hpending, hfirst⟩ := scanChunk_reaches chunk hplain h
      obtain ⟨left, hleft, hlast, hrest⟩ := ih _ middle hmiddle hpending
      have hstep := hfirst chunks.flatten
      rw [append_assoc] at hstep
      have hlines := hstep.lines.trans hrest.lines
      have hcount := hstep.oversizes
      have hcounts := hrest.oversizes
      refine ⟨left, hleft, hlast, hlines, ?_⟩
      rw [flatten_cons, foldl_cons]
      omega
  obtain ⟨left, hleft, hpending, hlines, hcount⟩ := hchunks reads.chunks {} [] (by simp) pending_start
  obtain ⟨-, hlast, hcounted⟩ := consume_line [] hpending
  rw [nil_append, reads.whole, splitOn_eq_singleton hleft] at hlines hcount
  rw [append_nil] at hlast hcounted
  have hnone : ({} : Scan).oversizes = 0 ∧ counted ({} : Scan).line = 0 := ⟨rfl, rfl⟩
  unfold readJournalLines
  exact ⟨by rw [hlast, ← hlines]; rfl, by omega⟩

/-- An empty line is a line. -/
theorem readJournalLines_empty_line : ¬ ∀ (content : List UInt8) (reads : Reads content), (readJournalLines reads).lines =
    yielded ((content.splitOn 10).filter fun line => line ≠ []) := by
  intro hclaim
  have hlines := hclaim [] ⟨[], rfl, by simp⟩
  revert hlines
  decide

end llamactl.fleet.journalReader
