import Llamactl.Fleet.Migration.Execute
import Llamactl.Js.Objects
import Mathlib.Data.Prod.Lex

open collections effect js

namespace llamactl.fleet.migration

/-- A row of a supervisor's view of its peers, with the snapshot as it was parsed. -/
structure SnapshotRow where
  receivedAt : DateText
  snapshot : Json

structure LeaseIntent where
  candidate : List Nat
  term : ℚ
  eligible : Bool
  seq : ℚ

/-- The lease intent of a snapshot, when every field has the type it should have. -/
def readLeaseIntent (row : SnapshotRow) : Option LeaseIntent :=
  match row.snapshot.get? "lease" with
  | some lease =>
    match lease.get? "candidate", lease.get? "term", lease.get? "eligible", lease.get? "seq" with
    | some (.str candidate), some (.num term), some (.bool eligible), some (.num seq) =>
      match term.toDouble, seq.toDouble with
      | .finite term, .finite seq => some { candidate, term, eligible, seq }
      | _, _ => none
    | _, _, _, _ => none
  | none => none

/-- The loop variables of the election; `bestTerm` starts at positive infinity. -/
structure LeaseBest where
  bestCandidate : Option (List Nat) := none
  bestTerm : WithTop ℚ := ⊤

/-- Texts compare by their code units. -/
def LeaseBest.beatenBy (best : LeaseBest) (lease : LeaseIntent) : Bool :=
  lease.term < best.bestTerm ||
    (lease.term = best.bestTerm && best.bestCandidate.all fun candidate => lease.candidate < candidate)

/-- One iteration of the election. -/
def considerLease (now staleAfterMs : Int) (best : LeaseBest) (row : SnapshotRow) : LeaseBest :=
  match readLeaseIntent row with
  | none => best
  | some lease =>
    if !lease.eligible then best
    else
      match Date.parse row.receivedAt with
      | none => best
      | some tsMs =>
        if staleAfterMs ≤ now - tsMs then best
        else if best.beatenBy lease then { bestCandidate := some lease.candidate, bestTerm := lease.term }
        else best

def electLeaseHolder (peerSnapshots : List SnapshotRow) (now staleAfterMs : Int) : Option (List Nat) :=
  (peerSnapshots.foldl (considerLease now staleAfterMs) {}).bestCandidate

/-- What one supervisor elects over: the rows it holds, its clock and its patience. -/
structure LeaseView where
  peerSnapshots : List SnapshotRow
  now : Int
  staleAfterMs : Int

def LeaseView.holder (view : LeaseView) : Option (List Nat) :=
  electLeaseHolder view.peerSnapshots view.now view.staleAfterMs

/-- The tuple candidates are ordered by. -/
abbrev LeaseRank : Type := ℚ ×ₗ List Nat

def LeaseIntent.rank (lease : LeaseIntent) : LeaseRank := toLex (lease.term, lease.candidate)

structure LeaseView.Stands (view : LeaseView) (row : SnapshotRow) (lease : LeaseIntent) : Prop where
  read : readLeaseIntent row = some lease
  eligible : lease.eligible = true
  fresh : ∃ tsMs, Date.parse row.receivedAt = some tsMs ∧ view.now - tsMs < view.staleAfterMs

/-- The `(term, candidate)` tuples of the fresh and eligible rows. -/
def LeaseView.standing (view : LeaseView) : Set LeaseRank :=
  {rank | ∃ row ∈ view.peerSnapshots, ∃ lease, view.Stands row lease ∧ lease.rank = rank}

/-- Views with the same fresh and eligible rows have the same candidates, whatever
else they hold and in whatever order. -/
theorem LeaseView.standing_eq_of_rows {a b : LeaseView}
    (hrows : ∀ row lease, (row ∈ a.peerSnapshots ∧ a.Stands row lease) ↔ (row ∈ b.peerSnapshots ∧ b.Stands row lease)) :
    a.standing = b.standing := by
  have hsub : ∀ {u v : LeaseView}, (∀ row lease, (row ∈ u.peerSnapshots ∧ u.Stands row lease) →
      (row ∈ v.peerSnapshots ∧ v.Stands row lease)) → u.standing ⊆ v.standing := by
    rintro u v huv rank ⟨row, hrow, lease, hstands, hrank⟩
    obtain ⟨hrow, hstands⟩ := huv row lease ⟨hrow, hstands⟩
    exact ⟨row, hrow, lease, hstands, hrank⟩
  exact Set.Subset.antisymm (hsub fun row lease => (hrows row lease).mp) (hsub fun row lease => (hrows row lease).mpr)

/-- The loop variables after the rows whose ranks are `ranks`: the least of them,
or the initial values when there is none. -/
def LeaseBest.Leads (best : LeaseBest) (ranks : Set LeaseRank) : Prop :=
  match best.bestCandidate with
  | none => best.bestTerm = ⊤ ∧ ranks = ∅
  | some candidate => ∃ term : ℚ, best.bestTerm = term ∧ IsLeast ranks (toLex (term, candidate))

theorem LeaseBest.Leads.beatenBy_iff {best : LeaseBest} {ranks : Set LeaseRank} (hleads : best.Leads ranks)
    (lease : LeaseIntent) : best.beatenBy lease = true ↔ ∀ rank ∈ ranks, lease.rank < rank := by
  obtain ⟨bestCandidate, bestTerm⟩ := best
  cases bestCandidate with
  | none =>
    obtain ⟨rfl, rfl⟩ := hleads
    simp [LeaseBest.beatenBy]
  | some candidate =>
    obtain ⟨term, hterm, hleast⟩ := hleads
    have hterm : bestTerm = term := hterm
    subst hterm
    have hbeaten : LeaseBest.beatenBy ⟨some candidate, term⟩ lease = true ↔
        lease.rank < toLex (term, candidate) := by
      simp [LeaseBest.beatenBy, LeaseIntent.rank, Prod.Lex.toLex_lt_toLex]
    rw [hbeaten]
    constructor
    · intro hlt rank hrank
      exact lt_of_lt_of_le hlt (hleast.2 hrank)
    · intro hall
      exact hall _ hleast.1

theorem LeaseBest.Leads.considerLease {best : LeaseBest} {ranks : Set LeaseRank}
    (hleads : best.Leads ranks) (view : LeaseView) (row : SnapshotRow) :
    (considerLease view.now view.staleAfterMs best row).Leads
      (ranks ∪ {rank | ∃ lease, view.Stands row lease ∧ lease.rank = rank}) := by
  have hskip : (∀ lease, ¬view.Stands row lease) →
      best.Leads (ranks ∪ {rank | ∃ lease, view.Stands row lease ∧ lease.rank = rank}) := by
    intro hnone
    have hempty : {rank | ∃ lease, view.Stands row lease ∧ lease.rank = rank} = ∅ :=
      Set.eq_empty_of_forall_notMem fun rank ⟨lease, hstands, _⟩ => hnone lease hstands
    rw [hempty, Set.union_empty]
    exact hleads
  unfold migration.considerLease
  cases hread : readLeaseIntent row with
  | none =>
    refine hskip fun lease hstands => ?_
    have := hstands.read
    simp [hread] at this
  | some lease =>
    have honly : ∀ other, view.Stands row other → other = lease := by
      intro other hother
      have := hother.read
      simp only [hread, Option.some.injEq] at this
      exact this.symm
    dsimp only
    split
    · rename_i hineligible
      refine hskip fun other hother => ?_
      have := hother.eligible
      rw [honly other hother] at this
      simp [this] at hineligible
    rename_i heligible
    cases hparse : Date.parse row.receivedAt with
    | none =>
      refine hskip fun other hother => ?_
      obtain ⟨tsMs, hts, -⟩ := hother.fresh
      simp [hparse] at hts
    | some tsMs =>
      dsimp only
      split
      · rename_i hstale
        refine hskip fun other hother => ?_
        obtain ⟨actual, hts, hfresh⟩ := hother.fresh
        simp only [hparse, Option.some.injEq] at hts
        omega
      rename_i hfresh
      have hstands : view.Stands row lease :=
        ⟨hread, by simpa using heligible, tsMs, hparse, by omega⟩
      have hset : {rank | ∃ lease, view.Stands row lease ∧ lease.rank = rank} = {lease.rank} := by
        ext rank
        constructor
        · rintro ⟨other, hother, rfl⟩
          rw [honly other hother]
          rfl
        · rintro rfl
          exact ⟨lease, hstands, rfl⟩
      rw [hset]
      split
      · rename_i hbeaten
        have hless := (hleads.beatenBy_iff lease).mp hbeaten
        refine ⟨lease.term, rfl, Or.inr rfl, ?_⟩
        rintro rank (hrank | rfl)
        · exact (hless rank hrank).le
        · exact le_rfl
      rename_i hbeaten
      have hnotless := mt (hleads.beatenBy_iff lease).mpr hbeaten
      push Not at hnotless
      obtain ⟨rank, hrank, hle⟩ := hnotless
      obtain ⟨bestCandidate, bestTerm⟩ := best
      cases bestCandidate with
      | none =>
        obtain ⟨-, rfl⟩ := hleads
        exact absurd hrank (Set.notMem_empty rank)
      | some candidate =>
        obtain ⟨term, hterm, hleast⟩ := hleads
        refine ⟨term, hterm, Or.inl hleast.1, ?_⟩
        rintro other (hother | rfl)
        · exact hleast.2 hother
        · exact (hleast.2 hrank).trans hle

theorem leads_of_rows (view : LeaseView) :
    (view.peerSnapshots.foldl (considerLease view.now view.staleAfterMs) {}).Leads view.standing := by
  have hrun : ∀ (rows : List SnapshotRow) (best : LeaseBest) (ranks : Set LeaseRank), best.Leads ranks →
      (rows.foldl (considerLease view.now view.staleAfterMs) best).Leads
        (ranks ∪ {rank | ∃ row ∈ rows, ∃ lease, view.Stands row lease ∧ lease.rank = rank}) := by
    intro rows
    induction rows with
    | nil =>
      intro best ranks hleads
      simpa using hleads
    | cons row rows ih =>
      intro best ranks hleads
      have hnext := ih _ _ (hleads.considerLease view row)
      rw [Set.union_assoc] at hnext
      have hranks : {rank | ∃ other ∈ row :: rows, ∃ lease, view.Stands other lease ∧ lease.rank = rank} =
          {rank | ∃ lease, view.Stands row lease ∧ lease.rank = rank} ∪
            {rank | ∃ other ∈ rows, ∃ lease, view.Stands other lease ∧ lease.rank = rank} := by
        ext rank
        simp
      rw [hranks]
      exact hnext
  have hstart := hrun view.peerSnapshots {} ∅ ⟨rfl, rfl⟩
  rwa [Set.empty_union] at hstart

theorem LeaseView.holder_spec (view : LeaseView) :
    match view.holder with
    | none => view.standing = ∅
    | some candidate => ∃ term, IsLeast view.standing (toLex (term, candidate)) := by
  have hleads := leads_of_rows view
  unfold LeaseView.holder electLeaseHolder
  unfold LeaseBest.Leads at hleads
  split at hleads
  · exact hleads.2
  · obtain ⟨term, -, hleast⟩ := hleads
    exact ⟨term, hleast⟩

theorem LeaseView.holder_congr {a b : LeaseView} (hsame : a.standing = b.standing) : a.holder = b.holder := by
  have ha := a.holder_spec
  have hb := b.holder_spec
  rw [hsame] at ha
  cases hha : a.holder with
  | none =>
    rw [hha] at ha
    cases hhb : b.holder with
    | none => rfl
    | some candidate =>
      rw [hhb] at hb
      obtain ⟨term, hleast⟩ := hb
      rw [ha] at hleast
      exact absurd hleast.1 (Set.notMem_empty _)
  | some candidate =>
    rw [hha] at ha
    obtain ⟨term, hleast⟩ := ha
    cases hhb : b.holder with
    | none =>
      rw [hhb] at hb
      rw [hb] at hleast
      exact absurd hleast.1 (Set.notMem_empty _)
    | some other =>
      rw [hhb] at hb
      obtain ⟨term', hleast'⟩ := hb
      have hranks := hleast.unique hleast'
      have hpairs : (term, candidate) = (term', other) := toLex.injective hranks
      rw [(Prod.mk.inj hpairs).2]

/-- Every lease reading of the run names the holder this view elects. -/
def LeaseView.Answers (view : LeaseView) (trace : List MEvent) : Prop :=
  ∀ holder, (⟨.getLeaseHolder, holder⟩ : MEvent) ∈ trace →
    ∀ node, holder = some node ↔ view.holder = some (codeUnits node)

variable {deps : MigrationControllerDeps} {self after : MigrationController} {workload : MigrationWorkload}
  {snapshot : NodeSnapshot} {proposal : MoveProposal} {trace : List MEvent}

theorem evaluateMove_reads_lease
    (hrun : (evaluateMove deps self workload snapshot).Runs trace (some proposal, after)) :
    (⟨.getLeaseHolder, some deps.selfNode⟩ : MEvent) ∈ trace := by
  unfold evaluateMove at hrun
  split at hrun
  · simp at hrun
  simp only [Prog.bind_eq, Prog.issue_bind, Prog.runs_call_iff] at hrun
  obtain ⟨holder, rest, rfl, hrest⟩ := hrun
  split at hrest
  · simp at hrest
  rename_i hholder
  rw [not_not.mp hholder]
  exact List.mem_cons_self

theorem LeaseView.Answers.elects_proposer {view : LeaseView} (hanswers : view.Answers trace)
    (hrun : (evaluateMove deps self workload snapshot).Runs trace (some proposal, after)) :
    view.holder = some (codeUnits deps.selfNode) :=
  (hanswers _ (evaluateMove_reads_lease hrun) deps.selfNode).mp rfl

/-- Two supervisors that see the same fresh and eligible candidates elect the same
node, the least by term and then by name, and at most that node proposes moves. -/
theorem lease_agreement (a b : LeaseView) (hsame : a.standing = b.standing) :
    a.holder = b.holder ∧
    (match a.holder with
      | none => a.standing = ∅
      | some candidate => ∃ term, IsLeast a.standing (toLex (term, candidate))) ∧
    ∀ (depsA depsB : MigrationControllerDeps) (selfA selfB afterA afterB : MigrationController)
      (workloadA workloadB : MigrationWorkload) (snapshotA snapshotB : NodeSnapshot)
      (proposalA proposalB : MoveProposal) (traceA traceB : List MEvent),
      (evaluateMove depsA selfA workloadA snapshotA).Runs traceA (some proposalA, afterA) →
      (evaluateMove depsB selfB workloadB snapshotB).Runs traceB (some proposalB, afterB) →
      a.Answers traceA → b.Answers traceB →
      depsA.selfNode = depsB.selfNode ∧ a.holder = some (codeUnits depsA.selfNode) := by
  have hholder := LeaseView.holder_congr hsame
  refine ⟨hholder, a.holder_spec, ?_⟩
  intro depsA depsB _ _ _ _ _ _ _ _ _ _ traceA traceB hrunA hrunB hanswersA hanswersB
  have helected := hanswersA.elects_proposer hrunA
  refine ⟨?_, helected⟩
  -- The other supervisor read a holder too, and its view names the same one.
  have hread := (hanswersB _ (evaluateMove_reads_lease hrunB) depsA.selfNode).mpr (hholder ▸ helected)
  exact (Option.some.inj hread).symm

/-- A snapshot received at `ms` whose node stands with the given term. -/
def leaseRow (candidate : String) (term : Nat) (eligible : Bool) (ms : Int) : SnapshotRow :=
  { receivedAt := .instant ms
    snapshot := .obj [(units "lease", .obj [(units "candidate", .str (codeUnits candidate)),
      (units "term", .num (Numeral.ofNat term)), (units "eligible", .bool eligible),
      (units "seq", .num (Numeral.ofNat 1))])] }

def miniView : LeaseView :=
  { peerSnapshots := [leaseRow "studio" 3 true 0, leaseRow "m4pro" 4 true 99000, leaseRow "m2mini" 4 true 99000]
    now := 100000
    staleAfterMs := 90000 }

def proView : LeaseView :=
  { peerSnapshots := [leaseRow "m2mini" 4 true 99000, leaseRow "edge" 1 false 100500, leaseRow "m4pro" 4 true 99000]
    now := 101000
    staleAfterMs := 90000 }

theorem miniView_standing : miniView.standing = proView.standing := by
  have hstudio : ∀ lease, ¬miniView.Stands (leaseRow "studio" 3 true 0) lease := by
    rintro lease ⟨-, -, tsMs, hparse, hfresh⟩
    have hts : some (0 : Int) = some tsMs := hparse
    simp only [Option.some.injEq] at hts
    simp [miniView, ← hts] at hfresh
  have hedge : ∀ lease, ¬proView.Stands (leaseRow "edge" 1 false 100500) lease := by
    rintro lease ⟨hread, heligible, -⟩
    have hno : (readLeaseIntent (leaseRow "edge" 1 false 100500)).any (fun intent => intent.eligible) = false := by
      decide +kernel
    simp [hread, heligible] at hno
  apply LeaseView.standing_eq_of_rows
  intro row lease
  have hmini : row ∈ miniView.peerSnapshots ↔ row = leaseRow "studio" 3 true 0 ∨
      row = leaseRow "m4pro" 4 true 99000 ∨ row = leaseRow "m2mini" 4 true 99000 := by
    simp [miniView]
  have hpro : row ∈ proView.peerSnapshots ↔ row = leaseRow "m2mini" 4 true 99000 ∨
      row = leaseRow "edge" 1 false 100500 ∨ row = leaseRow "m4pro" 4 true 99000 := by
    simp [proView]
  have hclock : ∀ candidate, miniView.Stands (leaseRow candidate 4 true 99000) lease ↔
      proView.Stands (leaseRow candidate 4 true 99000) lease := by
    intro candidate
    have hfreshMini : ∃ tsMs, Date.parse (leaseRow candidate 4 true 99000).receivedAt = some tsMs ∧
        miniView.now - tsMs < miniView.staleAfterMs := ⟨99000, rfl, by decide⟩
    have hfreshPro : ∃ tsMs, Date.parse (leaseRow candidate 4 true 99000).receivedAt = some tsMs ∧
        proView.now - tsMs < proView.staleAfterMs := ⟨99000, rfl, by decide⟩
    exact ⟨fun hstands => ⟨hstands.read, hstands.eligible, hfreshPro⟩,
      fun hstands => ⟨hstands.read, hstands.eligible, hfreshMini⟩⟩
  rw [hmini, hpro]
  constructor
  · rintro ⟨rfl | rfl | rfl, hstands⟩
    · exact absurd hstands (hstudio lease)
    · exact ⟨Or.inr (Or.inr rfl), (hclock _).mp hstands⟩
    · exact ⟨Or.inl rfl, (hclock _).mp hstands⟩
  rintro ⟨rfl | rfl | rfl, hstands⟩
  · exact ⟨Or.inr (Or.inr rfl), (hclock _).mpr hstands⟩
  · exact absurd hstands (hedge lease)
  · exact ⟨Or.inr (Or.inl rfl), (hclock _).mpr hstands⟩

/-- A stale row in one view and an ineligible one in the other change nothing. -/
theorem lease_agreement_two_views :
    miniView.holder = proView.holder ∧ miniView.holder = some (codeUnits "m2mini") :=
  ⟨(lease_agreement miniView proView miniView_standing).1, by decide +kernel⟩

end llamactl.fleet.migration
