import Llamactl.Fleet.Migration.Faulty
import Llamactl.Fleet.Migration.Records

open collections effect js List Option

namespace llamactl.fleet.migration.faulty

/-! What is deployed onto one peer within a reservation tick, against what the peer
reported. -/

def reported (peer : String) : FEvent → Option Megabytes
  | ⟨.fetchSnapshot _ node, .ok snapshot⟩ => if node = peer then snapshot.freeMb else none
  | _ => none

def firstReported (peer : String) (trace : List FEvent) : Option Megabytes := trace.findSome? (reported peer)

def deployedOnto (peer : String) : FEvent → Option MoveProposal
  | ⟨.deployWorkload move _ node, .ok _⟩ => if node = peer then some move.proposal else none
  | _ => none

def movesOnto (peer : String) (trace : List FEvent) : List MoveProposal := trace.filterMap (deployedOnto peer)

variable (deps : MigrationControllerDeps)

/-- The larger of the configured minimum and the memory of the workload. -/
def requiredMb (proposal : MoveProposal) : Int := minRequiredFreeMb deps proposal.workloadMemoryMb

def committedMb (peer : String) (trace : List FEvent) : Int := ((movesOnto peer trace).map (requiredMb deps)).sum

/-- The reservation tick that a reading of the clock falls into. -/
def tickOf : FEvent → Option Int
  | ⟨.getCurrentTick, tick⟩ => if deps.getCurrentTick then some tick else none
  | ⟨.getNowMs, now⟩ =>
    if deps.getCurrentTick then none
    else some (if deps.tickIntervalMs ≤ 0 then Int.fdiv now 1000 else Int.fdiv now deps.tickIntervalMs)
  | _ => none

def InTick (tick : Int) (trace : List FEvent) : Prop := ∀ event ∈ trace, ∀ read, tickOf deps event = some read → read = tick

/-- The entry is written between a returned deploy and its reservation. -/
def FollowsDeploy : FleetJournalEntry → Prop
  | .execution entry => ∃ id : String, entry.reason = some s!"evict suppressed by move {id}"
  | .proposal entry => ∃ workload fromNode toNode reason, entry.action = .move workload fromNode toNode reason
  | _ => False

/-- Within the tick, and no write between a returned deploy and its reservation threw. -/
structure Kept (tick : Int) (trace : List FEvent) : Prop where
  inTick : InTick deps tick trace
  written : ∀ entry message, ⟨.writeJournalEntry entry, .error message⟩ ∈ trace → ¬FollowsDeploy entry

/-- The table holds what the peer first reported less what was deployed onto it; a
peer that has not reported holds no place in the table. -/
def Projects (tick : Int) (self : MigrationController) (peer : String) (report : Option Megabytes)
    (moves : List MoveProposal) : Prop :=
  match report with
  | none => moves = [] ∧ ∀ held, self.destinationCapacityReservations.get? peer = some held → held.tick ≠ tick
  | some free => self.destinationCapacityReservations.get? peer =
      some ⟨tick, minusMb free (moves.map fun proposal => max (requiredMb deps proposal) 0).sum⟩

/-- The projected free memory of the destination covers the proposal. -/
def Covers (tick : Int) (self : MigrationController) (proposal : MoveProposal) : Prop :=
  ∃ mb, self.destinationCapacityReservations.get? proposal.toNode = some ⟨tick, .finite mb⟩ ∧
    max (requiredMb deps proposal) 0 ≤ mb

/-- The books of the session: the table accounts for the reports and the deploys, no
peer is deployed onto beyond its first report, and the proposals that may still be
executed are covered. -/
structure Balanced (tick : Int) (fresh : List MoveProposal) (reports : String → Option Megabytes)
    (moves : String → List MoveProposal) (controller : MigrationController) : Prop where
  table : ∀ peer, Projects deps tick controller peer (reports peer) (moves peer)
  bounded : ∀ peer, moves peer ≠ [] → ∃ first, reports peer = some (.finite first) ∧
    ((moves peer).map fun proposal => max (requiredMb deps proposal) 0).sum ≤ first
  covered : ∀ proposal ∈ fresh, Covers deps tick controller proposal

/-- The assertion holds of the reports and the deploys of a history that was kept. -/
def Upon (tick : Int) (inv : (String → Option Megabytes) → (String → List MoveProposal) → MigrationController → Prop)
    (past : List FEvent) (self : MigrationController) : Prop :=
  Kept deps tick past → inv (fun peer => firstReported peer past) (fun peer => movesOnto peer past) self

structure Quietly (past after : List FEvent) : Prop where
  longer : past <+: after
  reports : ∀ peer, firstReported peer after = firstReported peer past
  moves : ∀ peer, movesOnto peer after = movesOnto peer past

theorem Quietly.refl (past : List FEvent) : Quietly past past := ⟨prefix_rfl, fun _ => rfl, fun _ => rfl⟩

theorem Quietly.trans {a b c : List FEvent} (hab : Quietly a b) (hbc : Quietly b c) : Quietly a c :=
  ⟨hab.longer.trans hbc.longer, fun peer => (hbc.reports peer).trans (hab.reports peer),
    fun peer => (hbc.moves peer).trans (hab.moves peer)⟩

/-- A call that neither reads a peer nor deploys. -/
def Quiet : Call → Prop
  | .fetchSnapshot _ _ => False
  | .deployWorkload _ _ _ => False
  | _ => True

theorem Clock.quiet {call : Call} (h : Clock call) : Quiet call := by
  cases call <;> first | exact trivial | exact h

variable {deps} {tick : Int} {past : List FEvent} {self : MigrationController}

theorem firstReported_append (peer : String) (event : FEvent) :
    firstReported peer (past ++ [event]) = (firstReported peer past).or (reported peer event) := by
  unfold firstReported
  rw [findSome?_append]
  cases hevent : reported peer event <;> simp [hevent]

theorem movesOnto_append (peer : String) (event : FEvent) :
    movesOnto peer (past ++ [event]) = movesOnto peer past ++ (deployedOnto peer event).toList := by
  unfold movesOnto
  rw [filterMap_append]
  cases hevent : deployedOnto peer event <;> simp [hevent]

theorem quietly_append {event : FEvent} (hquiet : Quiet event.call) : Quietly past (past ++ [event]) := by
  have hreported : ∀ peer, reported peer event = none := by
    obtain ⟨call, reply⟩ := event
    cases call
    case fetchSnapshot => exact hquiet.elim
    all_goals exact fun _ => rfl
  have hdeployed : ∀ peer, deployedOnto peer event = none := by
    obtain ⟨call, reply⟩ := event
    cases call
    case deployWorkload => exact hquiet.elim
    all_goals exact fun _ => rfl
  refine ⟨prefix_append _ _, fun peer => ?_, fun peer => ?_⟩
  · rw [firstReported_append, hreported, or_none]
  · rw [movesOnto_append, hdeployed]
    exact append_nil _

theorem Kept.of_prefix {after : List FEvent} (hkept : Kept deps tick after) (hlonger : past <+: after) : Kept deps tick past :=
  ⟨fun event hevent => hkept.inTick event (hlonger.subset hevent),
    fun entry message hevent => hkept.written entry message (hlonger.subset hevent)⟩

/-- Anything may happen; only the end of the run is described. -/
def anyEvent (_ : List FEvent) (_ : FEvent) : Prop := True

/-- The part of the controller ends as described, whatever it is answered. -/
def Ends {A : Type} (p : MProg A) (post : List FEvent → A → Prop) (past : List FEvent) : Prop :=
  (p.withReplies settled).Holds anyEvent post past

theorem Ends.bind {A B : Type} {p : MProg A} {f : A → MProg B} {mid : List FEvent → A → Prop} {post : List FEvent → B → Prop}
    (hp : Ends p mid past) (hf : ∀ after value, mid after value → Ends (f value) post after) : Ends (p.bind f) post past := by
  unfold Ends
  rw [Prog.withReplies_bind]
  exact Prog.Holds.bind hp hf

theorem Ends.mono {A : Type} {p : MProg A} {post weaker : List FEvent → A → Prop} (hp : Ends p post past)
    (himp : ∀ after value, post after value → weaker after value) : Ends p weaker past :=
  Prog.Holds.mono himp hp

theorem ends_quietly {A : Type} {p : MProg A} {post : A → Prop} (hp : p.Only Quiet post) :
    Ends p (fun after value => Quietly past after ∧ post value) past :=
  Prog.Only.holds (fun _ _ _ => trivial) (fun _ _ hquiet hpast => hpast.trans (quietly_append hquiet)) hp.withReplies
    (Quietly.refl past)

section

variable (tick)

theorem reservationTick_ends :
    Ends (reservationTick deps) (fun after read => Quietly past after ∧ (Kept deps tick after → read = tick)) past := by
  unfold reservationTick
  cases hsupplied : deps.getCurrentTick with
  | true =>
    intro read
    refine ⟨trivial, quietly_append trivial, fun hkept => ?_⟩
    exact hkept.inTick ⟨.getCurrentTick, read⟩ (by simp) read (by simp [tickOf, hsupplied])
  | false =>
    intro now
    refine ⟨trivial, quietly_append trivial, fun hkept => ?_⟩
    exact hkept.inTick ⟨.getNowMs, now⟩ (by simp) _ (by simp [tickOf, hsupplied]; rfl)

def reserved (self : MigrationController) (peer : String) (freeMb : Megabytes) : MigrationController :=
  { self with destinationCapacityReservations := self.destinationCapacityReservations.set peer ⟨tick, freeMb⟩ }

theorem setReservation_ends (self : MigrationController) (peer : String) (freeMb : Megabytes) :
    Ends (setReservation deps self peer freeMb) (fun after result => Quietly past after ∧
      (Kept deps tick after → result = reserved tick self peer freeMb)) past := by
  refine (reservationTick_ends tick).bind fun after read hread => ⟨hread.1, fun hkept => ?_⟩
  rw [hread.2 hkept]
  rfl

/-- A projection of this tick is taken as it is; else the report starts one. -/
def ProjectedFrom (self : MigrationController) (peer : String) (freeMb : Megabytes) (result : Megabytes × MigrationController) :
    Prop :=
  (∃ held, self.destinationCapacityReservations.get? peer = some ⟨tick, held⟩ ∧ result = (held, self)) ∨
    (∀ held, self.destinationCapacityReservations.get? peer = some held → held.tick ≠ tick) ∧
      result = (freeMb, reserved tick self peer freeMb)

theorem getOrInitDestinationProjection_ends (self : MigrationController) (peer : String) (freeMb : Megabytes) :
    Ends (getOrInitDestinationProjection deps self peer freeMb) (fun after result => Quietly past after ∧
      (Kept deps tick after → ProjectedFrom tick self peer freeMb result)) past := by
  refine (reservationTick_ends tick).bind fun mid read hread => ?_
  have hinit : (∀ held, self.destinationCapacityReservations.get? peer = some held → held.tick ≠ read) →
      Ends ((setReservation deps self peer freeMb).bind fun next => Prog.ret (freeMb, next)) (fun after result =>
        Quietly past after ∧ (Kept deps tick after → ProjectedFrom tick self peer freeMb result)) mid := by
    intro hstale
    refine (setReservation_ends tick self peer freeMb).bind fun after next hnext => ?_
    refine ⟨hread.1.trans hnext.1, fun hkept => Or.inr ⟨?_, by rw [hnext.2 hkept]⟩⟩
    rw [← hread.2 (hkept.of_prefix hnext.1.longer)]
    exact hstale
  cases hheld : self.destinationCapacityReservations.get? peer with
  | none => exact hinit (by simp [hheld])
  | some held =>
    by_cases htick : held.tick = read
    · simp only [htick, if_true]
      refine ⟨hread.1, fun hkept => Or.inl ⟨held.freeMb, ?_, rfl⟩⟩
      rw [hheld, ← hread.2 hkept, ← htick]
    · simp only [htick, if_false]
      exact hinit (by simpa [hheld] using htick)

theorem reserveDestinationCapacity_ends (self : MigrationController) (peer : String) (memoryMb : Int) :
    Ends (migration.reserveDestinationCapacity deps self peer memoryMb) (fun after result => Quietly past after ∧
      (Kept deps tick after → ∀ held, self.destinationCapacityReservations.get? peer = some ⟨tick, held⟩ →
        result = reserved tick self peer (minusMb held (max memoryMb 0)))) past := by
  refine (getOrInitDestinationProjection_ends tick self peer _).bind fun mid projected hprojected => ?_
  refine (setReservation_ends tick projected.2 peer _).mono fun after result hresult => ?_
  refine ⟨hprojected.1.trans hresult.1, fun hkept held hheld => ?_⟩
  rcases hprojected.2 (hkept.of_prefix hresult.1.longer) with ⟨actual, hactual, rfl⟩ | ⟨hstale, -⟩
  · rw [hheld] at hactual
    cases hactual
    exact hresult.2 hkept
  · exact absurd rfl (hstale _ hheld)

end

section

/-- The free memory that the first of the peer's snapshots with a number reports. -/
def firstOf (peer : String) (found : List (String × NodeSnapshot)) : Option Megabytes :=
  found.findSome? fun entry => if entry.1 = peer then entry.2.freeMb else none

/-- The longer history adds these reports and no deploy. -/
structure Reads (past after : List FEvent) (reports : String → Option Megabytes) : Prop where
  longer : past <+: after
  reports : ∀ peer, firstReported peer after = (firstReported peer past).or (reports peer)
  moves : ∀ peer, movesOnto peer after = movesOnto peer past

theorem safeFetchSnapshot_ends (move : Option Move) (node : String) :
    Ends (migration.safeFetchSnapshot move node) (fun after snapshot =>
      Reads past after fun peer => if node = peer then snapshot.bind NodeSnapshot.freeMb else none) past := by
  intro reply
  refine ⟨trivial, ?_⟩
  cases reply with
  | error message =>
    refine ⟨prefix_append _ _, fun peer => ?_, fun peer => ?_⟩
    · rw [firstReported_append]
      simp [reported]
    · rw [movesOnto_append]
      exact append_nil _
  | ok snapshot =>
    refine ⟨prefix_append _ _, fun peer => ?_, fun peer => ?_⟩
    · rw [firstReported_append]
      rfl
    · rw [movesOnto_append]
      exact append_nil _

theorem fetchPeerSnapshots_ends (peers : List String) :
    ∀ {past}, Ends (fetchPeerSnapshots peers) (fun after found => Reads past after fun peer => firstOf peer found) past := by
  induction peers with
  | nil =>
    intro past
    exact ⟨prefix_rfl, fun peer => or_none.symm, fun _ => rfl⟩
  | cons peer peers ih =>
    intro past
    refine (safeFetchSnapshot_ends none peer).bind fun mid snapshot hmid => ih.bind fun after rest hafter => ?_
    have hjoined : Reads past after fun other =>
        (if peer = other then snapshot.bind NodeSnapshot.freeMb else none).or (firstOf other rest) := by
      refine ⟨hmid.longer.trans hafter.longer, fun other => ?_, fun other => (hafter.moves other).trans (hmid.moves other)⟩
      rw [hafter.reports, hmid.reports, Option.or_assoc]
    cases snapshot with
    | none =>
      have hnone : Reads past after fun other => firstOf other rest := by simpa using hjoined
      exact hnone
    | some snapshot =>
      have hfirst : (fun other => (if peer = other then snapshot.freeMb else none).or (firstOf other rest)) =
          fun other => firstOf other ((peer, snapshot) :: rest) := by
        funext other
        unfold firstOf
        rw [findSome?_cons]
        cases (if peer = other then snapshot.freeMb else none) <;> rfl
      have hadded : Reads past after fun other => firstOf other ((peer, snapshot) :: rest) := hfirst ▸ hjoined
      exact hadded

theorem ProjectedFrom.table {peer : String} {freeMb : Megabytes} {result : Megabytes × MigrationController}
    (hprojected : ProjectedFrom tick self peer freeMb result) {reports : String → Option Megabytes}
    {moves : String → List MoveProposal} (htable : ∀ peer, Projects deps tick self peer (reports peer) (moves peer)) :
    (∀ other, Projects deps tick result.2 other ((reports other).or (if peer = other then some freeMb else none))
        (moves other)) ∧
      result.2.destinationCapacityReservations.get? peer = some ⟨tick, result.1⟩ ∧
      ∀ other held, self.destinationCapacityReservations.get? other = some ⟨tick, held⟩ →
        result.2.destinationCapacityReservations.get? other = some ⟨tick, held⟩ := by
  rcases hprojected with ⟨held, hheld, rfl⟩ | ⟨hstale, rfl⟩
  · refine ⟨fun other => ?_, hheld, fun _ _ hother => hother⟩
    by_cases hother : peer = other
    · subst hother
      have hknown := htable peer
      cases hreport : reports peer with
      | none =>
        rw [hreport] at hknown
        exact absurd rfl (hknown.2 _ hheld)
      | some free =>
        rw [hreport] at hknown
        exact hknown
    · rw [if_neg hother, or_none]
      exact htable other
  have hset : ∀ other, (reserved tick self peer freeMb).destinationCapacityReservations.get? other =
      if other = peer then some ⟨tick, freeMb⟩ else self.destinationCapacityReservations.get? other :=
    fun other => OrderedMap.get?_set _ _ _ _
  refine ⟨fun other => ?_, by rw [hset, if_pos rfl], fun other held hother => ?_⟩
  · by_cases hother : peer = other
    · subst hother
      have hknown := htable peer
      cases hreport : reports peer with
      | none =>
        rw [hreport] at hknown
        rw [none_or, if_pos rfl, hknown.1]
        refine (hset peer).trans ?_
        rw [if_pos rfl]
        cases freeMb <;> simp [minusMb]
      | some free =>
        rw [hreport] at hknown
        exact absurd rfl (hstale _ hknown)
    have hknown := htable other
    unfold Projects at hknown ⊢
    rw [if_neg hother, or_none, hset, if_neg (Ne.symm hother)]
    exact hknown
  have hne : other ≠ peer := by
    rintro rfl
    exact hstale _ hother rfl
  rw [hset, if_neg hne]
  exact hother

variable {fresh : List MoveProposal} {reports : String → Option Megabytes} {moves : String → List MoveProposal}

theorem Balanced.projected {peer : String} {freeMb : Megabytes} {result : Megabytes × MigrationController}
    (hbalanced : Balanced deps tick fresh reports moves self) (hprojected : ProjectedFrom tick self peer freeMb result) :
    Balanced deps tick fresh (fun other => (reports other).or (if peer = other then some freeMb else none)) moves result.2 := by
  obtain ⟨htable, -, hheld⟩ := hprojected.table hbalanced.table
  refine ⟨htable, fun other hmoves => ?_, fun proposal hproposal => ?_⟩
  · obtain ⟨first, hfirst, hsum⟩ := hbalanced.bounded other hmoves
    exact ⟨first, by rw [hfirst, some_or], hsum⟩
  · obtain ⟨mb, hmb, hcovers⟩ := hbalanced.covered proposal hproposal
    exact ⟨mb, hheld _ _ hmb, hcovers⟩

structure Fits (tick requiredFreeMb : Int) (state : BestDestination × MigrationController) : Prop where
  least : -1 ≤ state.1.freeMb
  chosen : ∀ node, state.1.node = some node → ∃ mb,
    state.2.destinationCapacityReservations.get? node = some ⟨tick, .finite mb⟩ ∧ max requiredFreeMb 0 ≤ mb

variable (tick) in
theorem projectPeer_ends (state : MigrationController) (peer : String) (snapshot : NodeSnapshot) :
    Ends (projectPeer deps state peer snapshot) (fun after result => Quietly past after ∧ (Kept deps tick after →
      match snapshot.freeMb with
      | none => result = (none, state)
      | some freeMb => ∃ projected, ProjectedFrom tick state peer freeMb projected ∧
          result = (some projected.1, projected.2))) past := by
  unfold projectPeer
  cases snapshot.freeMb with
  | none => exact ⟨Quietly.refl past, fun _ => rfl⟩
  | some freeMb =>
    refine (getOrInitDestinationProjection_ends tick state peer freeMb).bind fun after projected hprojected => ?_
    exact ⟨hprojected.1, fun hkept => ⟨projected, hprojected.2 hkept, rfl⟩⟩

theorem considerPeer_ends (requiredFreeMb : Int) (state : BestDestination × MigrationController)
    (entry : String × NodeSnapshot)
    (hstate : Kept deps tick past → Balanced deps tick fresh reports moves state.2 ∧ Fits tick requiredFreeMb state) :
    Ends (considerPeer deps requiredFreeMb state entry) (fun after next => Quietly past after ∧ (Kept deps tick after →
      Balanced deps tick fresh (fun other => (reports other).or (if entry.1 = other then entry.2.freeMb else none))
        moves next.2 ∧ Fits tick requiredFreeMb next)) past := by
  refine (projectPeer_ends tick state.2 entry.1 entry.2).bind fun after projected hprojected => ?_
  have hstep : Kept deps tick after →
      Balanced deps tick fresh (fun other => (reports other).or (if entry.1 = other then entry.2.freeMb else none))
        moves projected.2 ∧ Fits tick requiredFreeMb (state.1, projected.2) ∧
      ∀ free, projected.1 = some free → projected.2.destinationCapacityReservations.get? entry.1 = some ⟨tick, free⟩ := by
    intro hkept
    obtain ⟨hbalanced, hfits⟩ := hstate (hkept.of_prefix hprojected.1.longer)
    have hresult := hprojected.2 hkept
    cases hfree : entry.2.freeMb with
    | none =>
      rw [hfree] at hresult
      subst hresult
      simp only [ite_self, or_none]
      exact ⟨hbalanced, hfits, by simp⟩
    | some freeMb =>
      rw [hfree] at hresult
      obtain ⟨actual, hactual, rfl⟩ := hresult
      obtain ⟨-, hown, hheld⟩ := hactual.table hbalanced.table
      refine ⟨hbalanced.projected hactual, ⟨hfits.least, fun node hnode => ?_⟩, fun free hsome => ?_⟩
      · obtain ⟨mb, hmb, hroom⟩ := hfits.chosen node hnode
        exact ⟨mb, hheld _ _ hmb, hroom⟩
      · cases hsome
        exact hown
  have hstay : Kept deps tick after →
      Balanced deps tick fresh (fun other => (reports other).or (if entry.1 = other then entry.2.freeMb else none))
        moves projected.2 ∧ Fits tick requiredFreeMb (state.1, projected.2) :=
    fun hkept => ⟨(hstep hkept).1, (hstep hkept).2.1⟩
  split
  · rename_i projectedFreeMb hpressure hfinite
    split
    · rename_i hbetter
      refine ⟨hprojected.1, fun hkept => ⟨(hstep hkept).1, ?_, fun node hnode => ?_⟩⟩
      · have hleast := (hstep hkept).2.1.least
        dsimp only at hleast ⊢
        omega
      cases hnode
      have hleast := (hstep hkept).2.1.least
      dsimp only at hleast
      exact ⟨projectedFreeMb, (hstep hkept).2.2 _ hfinite, by omega⟩
    · exact ⟨hprojected.1, hstay⟩
  · exact ⟨hprojected.1, hstay⟩

theorem considerPeers_ends (requiredFreeMb : Int) (entries : List (String × NodeSnapshot)) :
    ∀ {past : List FEvent} {reports : String → Option Megabytes} (state : BestDestination × MigrationController),
      (Kept deps tick past → Balanced deps tick fresh reports moves state.2 ∧ Fits tick requiredFreeMb state) →
      Ends (entries.foldlM (considerPeer deps requiredFreeMb) state) (fun after next => Quietly past after ∧
        (Kept deps tick after → Balanced deps tick fresh (fun other => (reports other).or (firstOf other entries))
          moves next.2 ∧ Fits tick requiredFreeMb next)) past := by
  induction entries with
  | nil =>
    intro past reports state hstate
    refine ⟨Quietly.refl past, fun hkept => ?_⟩
    simpa [firstOf] using hstate hkept
  | cons entry entries ih =>
    intro past reports state hstate
    rw [foldlM_cons, Prog.bind_eq]
    refine (considerPeer_ends requiredFreeMb state entry hstate).bind fun mid next hnext => ?_
    refine (ih next hnext.2).mono fun after last hlast => ⟨hnext.1.trans hlast.1, fun hkept => ?_⟩
    have hreports : (fun other => ((reports other).or (if entry.1 = other then entry.2.freeMb else none)).or
        (firstOf other entries)) = fun other => (reports other).or (firstOf other (entry :: entries)) := by
      funext other
      rw [Option.or_assoc]
      unfold firstOf
      rw [findSome?_cons]
      cases (if entry.1 = other then entry.2.freeMb else none) <;> rfl
    exact hreports ▸ hlast.2 hkept

theorem findBestDestination_ends (fromNode : String) (requiredFreeMb : Int)
    (hself : Upon deps tick (Balanced deps tick fresh) past self) :
    Ends (findBestDestination deps self fromNode requiredFreeMb) (fun after best =>
      Upon deps tick (Balanced deps tick fresh) after best.2 ∧ (Kept deps tick after → ∀ node, best.1 = some node →
        ∃ mb, best.2.destinationCapacityReservations.get? node = some ⟨tick, .finite mb⟩ ∧ max requiredFreeMb 0 ≤ mb)) past := by
  refine (fetchPeerSnapshots_ends _).bind fun mid found hfound => ?_
  have hstart : Kept deps tick mid →
      Balanced deps tick fresh (fun peer => firstReported peer past) (fun peer => movesOnto peer past) self ∧
      Fits tick requiredFreeMb ({}, self) :=
    fun hkept => ⟨hself (hkept.of_prefix hfound.longer), ⟨le_refl _, nofun⟩⟩
  refine (considerPeers_ends requiredFreeMb found ({}, self) hstart).bind fun after best hbest => ?_
  have hbalanced : Kept deps tick after → Balanced deps tick fresh (fun peer => firstReported peer after)
      (fun peer => movesOnto peer after) best.2 := by
    intro hkept
    have hreports : (fun peer => firstReported peer after) =
        fun peer => (firstReported peer past).or (firstOf peer found) :=
      funext fun peer => (hbest.1.reports peer).trans (hfound.reports peer)
    have hmoves : (fun peer => movesOnto peer after) = fun peer => movesOnto peer past :=
      funext fun peer => (hbest.1.moves peer).trans (hfound.moves peer)
    rw [hreports, hmoves]
    exact (hbest.2 hkept).1
  exact ⟨hbalanced, fun hkept node hnode => (hbest.2 hkept).2.chosen node hnode⟩

theorem Upon.quietly {inv : (String → Option Megabytes) → (String → List MoveProposal) → MigrationController → Prop}
    (hself : Upon deps tick inv past self) {after : List FEvent} (hquiet : Quietly past after) :
    Upon deps tick inv after self := by
  intro hkept
  have hinv := hself (hkept.of_prefix hquiet.longer)
  rwa [← funext hquiet.reports, ← funext hquiet.moves] at hinv

theorem Balanced.same (hbalanced : Balanced deps tick fresh reports moves self) {after : MigrationController}
    (hsame : after.destinationCapacityReservations = self.destinationCapacityReservations) :
    Balanced deps tick fresh reports moves after := by
  obtain ⟨htable, hbounded, hcovered⟩ := hbalanced
  unfold Projects at htable
  unfold Covers at hcovered
  rw [← hsame] at htable hcovered
  exact ⟨htable, hbounded, hcovered⟩

theorem buildMoveProposal_quiet (workload : MigrationWorkload) (fromNode toNode : String) :
    (buildMoveProposal workload fromNode toNode).Only Quiet fun proposal =>
      proposal.toNode = toNode ∧ proposal.workloadMemoryMb = workload.memoryMb := by
  refine ⟨trivial, fun idMs => ?_⟩
  cases workload.evictProposalId with
  | some id => exact ⟨trivial, fun _ => ⟨trivial, fun _ => ⟨rfl, rfl⟩⟩⟩
  | none => exact ⟨trivial, fun _ => ⟨trivial, fun _ => ⟨trivial, fun _ => ⟨rfl, rfl⟩⟩⟩⟩

variable (deps tick fresh) in
/-- After an evaluation the books are balanced, and the proposal it made is covered. -/
def Evaluated (after : List FEvent) (result : Option MoveProposal × MigrationController) : Prop :=
  Upon deps tick (Balanced deps tick (result.1.toList ++ fresh)) after result.2

theorem proposeMove_ends (workload : MigrationWorkload) (fromNode : Option String)
    (hself : Upon deps tick (Balanced deps tick fresh) past self) :
    Ends (proposeMove deps self workload fromNode) (Evaluated deps tick fresh) past := by
  unfold proposeMove
  cases fromNode with
  | none => exact hself
  | some fromNode =>
    dsimp only
    split
    · exact hself
    refine (findBestDestination_ends fromNode _ hself).bind fun mid best hbest => ?_
    cases hchosen : best.1 with
    | none => exact hbest.1
    | some toNode =>
      dsimp only
      split
      · exact hbest.1
      refine (ends_quietly (buildMoveProposal_quiet workload fromNode toNode)).bind fun after proposal hbuilt => ?_
      obtain ⟨hquiet, hnode, hmemory⟩ := hbuilt
      intro hkept
      obtain ⟨htable, hbounded, hcovered⟩ := hbest.1.quietly hquiet hkept
      refine ⟨htable, hbounded, fun other hother => ?_⟩
      rcases mem_cons.mp hother with rfl | hold
      · obtain ⟨mb, hmb, hroom⟩ := hbest.2 (hkept.of_prefix hquiet.longer) toNode hchosen
        exact ⟨mb, by rw [hnode]; exact hmb, by unfold requiredMb; rw [hmemory]; exact hroom⟩
      · exact hcovered other hold

theorem evaluateMove_ends (workload : MigrationWorkload) (snapshot : NodeSnapshot)
    (hself : Upon deps tick (Balanced deps tick fresh) past self) :
    Ends (migration.evaluateMove deps self workload snapshot) (Evaluated deps tick fresh) past := by
  have hlease : (Prog.issue Call.getLeaseHolder : MProg _).Only Quiet fun _ => True := ⟨trivial, fun _ => trivial⟩
  have hvisible : (suppliedFlag deps.canSeeFreshDestinationPeer true
      (Prog.issue Call.canSeeFreshDestinationPeer)).Only Quiet fun _ => True :=
    suppliedFlag_only _ _ ⟨trivial, fun _ => trivial⟩
  have hmoving : (suppliedFlag deps.isPeerMovingWorkload false
      (Prog.issue (Call.isPeerMovingWorkload workload.name))).Only Quiet fun _ => True :=
    suppliedFlag_only _ _ ⟨trivial, fun _ => trivial⟩
  unfold migration.evaluateMove
  split
  · exact hself
  refine (ends_quietly hlease).bind fun past holder hpast => ?_
  replace hself := hself.quietly hpast.1
  split
  · exact hself
  refine (ends_quietly hvisible).bind fun past visible hpast => ?_
  replace hself := hself.quietly hpast.1
  split
  · exact hself
  split
  · exact hself
  refine (ends_quietly ((isInMoveCooldown_clock deps self workload.name).allow fun _ => Clock.quiet)).bind
    fun past cooldown hcool => ?_
  have hcooled : Upon deps tick (Balanced deps tick fresh) past cooldown.2 :=
    fun hkept => (hself.quietly hcool.1 hkept).same hcool.2.2
  dsimp only
  split
  · exact hcooled
  split
  · exact hcooled
  refine (ends_quietly hmoving).bind fun past moving hpast => ?_
  split
  · exact hcooled.quietly hpast.1
  · exact proposeMove_ends workload _ (hcooled.quietly hpast.1)

end

section

variable {fresh : List MoveProposal} {proposal : MoveProposal}
  {inv : (String → Option Megabytes) → (String → List MoveProposal) → MigrationController → Prop}

variable (deps tick) in
/-- A part of the controller that keeps the assertion when it returns. -/
def Preserves {A : Type} (inv : (String → Option Megabytes) → (String → List MoveProposal) → MigrationController → Prop)
    (p : FProg MigrationController A) (thrown : List FEvent → MigrationController → Prop) : Prop :=
  Fallible.Ensures anyEvent (Upon deps tick inv) p (fun past _ self => Upon deps tick inv past self) thrown

variable {thrown : List FEvent → MigrationController → Prop}

theorem preserves_issue {call : Call} (hquiet : Quiet call) : Preserves deps tick inv (Fallible.issue call) thrown :=
  Fallible.Ensures.issue (fun _ _ _ _ => trivial) fun _ _ _ hself => hself.quietly (quietly_append hquiet)

theorem preserves_clock : Preserves deps tick inv nowMs thrown := preserves_issue trivial

theorem preserves_write (entry : FleetJournalEntry) :
    Preserves deps tick inv (writeJournalEntry entry) (Upon deps tick inv) :=
  writeJournalEntry_ensures (fun _ _ _ _ => trivial) (fun _ _ hself => hself.quietly (quietly_append trivial))
    (fun _ _ _ hself => hself.quietly (quietly_append trivial))

theorem write_following (hthrown : ∀ past self, ¬Kept deps tick past → thrown past self) {entry : FleetJournalEntry}
    (hfollows : FollowsDeploy entry) : Preserves deps tick inv (writeJournalEntry entry) thrown := by
  refine writeJournalEntry_ensures (fun _ _ _ _ => trivial) (fun _ _ hself => hself.quietly (quietly_append trivial))
    (fun past self message _ => hthrown _ _ fun hkept => ?_)
  exact hkept.written entry message (by simp) hfollows

theorem preserves_unjournaled {A : Type} {p : MigrationController → MProg (A × MigrationController)}
    (hinv : ∀ {reports moves self after}, inv reports moves self →
      after.destinationCapacityReservations = self.destinationCapacityReservations → inv reports moves after)
    (hp : ∀ self, (p self).Only Quiet fun result =>
      result.2.destinationCapacityReservations = self.destinationCapacityReservations) :
    Preserves deps tick inv (unjournaled p) thrown := by
  refine Fallible.Ensures.lift fun past self hself => ?_
  refine (ends_quietly (hp self)).mono fun after result hresult hkept => ?_
  exact hinv (hself.quietly hresult.1 hkept) hresult.2

theorem markMoveInFlight_preserves (workload : String) :
    Preserves deps tick (Balanced deps tick fresh) (markMoveInFlight deps workload) thrown :=
  preserves_unjournaled (fun hbalanced hsame => hbalanced.same hsame) fun self =>
    ((markMoveInFlight_clock deps self workload).allow fun _ => Clock.quiet).bind fun _ hsame => hsame.2

variable (deps tick fresh proposal) in
/-- Between a returned deploy and its reservation: the books are balanced but for
the deployed proposal, which is covered. -/
def Owes (reports : String → Option Megabytes) (moves : String → List MoveProposal) (self : MigrationController) : Prop :=
  ∃ before, Balanced deps tick fresh reports before self ∧ Covers deps tick self proposal ∧
    moves = fun peer => before peer ++ if proposal.toNode = peer then [proposal] else []

/-- The proposals that stay covered when this one was deployed. -/
def elsewhere (fresh : List MoveProposal) (proposal : MoveProposal) : List MoveProposal :=
  fresh.filter fun other => other.toNode ≠ proposal.toNode

theorem Owes.paid {reports : String → Option Megabytes} {moves : String → List MoveProposal}
    (howes : Owes deps tick fresh proposal reports moves self) :
    ∃ held, self.destinationCapacityReservations.get? proposal.toNode = some ⟨tick, held⟩ ∧
      Balanced deps tick (elsewhere fresh proposal) reports moves
        (reserved tick self proposal.toNode (minusMb held (max (requiredMb deps proposal) 0))) := by
  obtain ⟨before, hbalanced, ⟨mb, hmb, hroom⟩, rfl⟩ := howes
  refine ⟨.finite mb, hmb, ?_⟩
  have hset : ∀ other, (reserved tick self proposal.toNode
      (minusMb (.finite mb) (max (requiredMb deps proposal) 0))).destinationCapacityReservations.get? other =
      if other = proposal.toNode then some ⟨tick, .finite (mb - max (requiredMb deps proposal) 0)⟩
      else self.destinationCapacityReservations.get? other :=
    fun other => OrderedMap.get?_set _ _ _ _
  -- The destination has reported: its entry is of this tick.
  obtain ⟨first, hfirst, hleft⟩ : ∃ first, reports proposal.toNode = some (.finite first) ∧
      mb = first - ((before proposal.toNode).map fun proposal => max (requiredMb deps proposal) 0).sum := by
    have hprojects := hbalanced.table proposal.toNode
    cases hreport : reports proposal.toNode with
    | none =>
      rw [hreport] at hprojects
      exact absurd rfl (hprojects.2 _ hmb)
    | some free =>
      rw [hreport] at hprojects
      have hentry := hmb.symm.trans hprojects
      cases free with
      | nonFinite => cases hentry
      | finite first => exact ⟨first, rfl, by simpa [minusMb] using hentry⟩
  refine ⟨fun peer => ?_, fun peer hmoves => ?_, fun other hother => ?_⟩
  · by_cases hpeer : proposal.toNode = peer
    · subst hpeer
      rw [hfirst]
      refine (hset _).trans ?_
      simp [minusMb, hleft]
      omega
    have hprojects := hbalanced.table peer
    unfold Projects at hprojects ⊢
    rw [if_neg hpeer, append_nil, hset, if_neg (Ne.symm hpeer)]
    exact hprojects
  · by_cases hpeer : proposal.toNode = peer
    · subst hpeer
      refine ⟨first, hfirst, ?_⟩
      simp
      omega
    · rw [if_neg hpeer, append_nil] at hmoves ⊢
      exact hbalanced.bounded peer hmoves
  obtain ⟨hfresh, hnode⟩ := mem_filter.mp hother
  obtain ⟨mb, hmb, hroom⟩ := hbalanced.covered other hfresh
  exact ⟨mb, by rw [hset, if_neg (by simpa using hnode)]; exact hmb, hroom⟩

theorem Balanced.owes (hself : Upon deps tick (Balanced deps tick fresh) past self) (hfresh : proposal ∈ fresh)
    {id : Nat} {workload : String} :
    Upon deps tick (Owes deps tick fresh proposal)
      (past ++ [⟨.deployWorkload ⟨id, proposal⟩ workload proposal.toNode, .ok ()⟩]) self := by
  intro hkept
  have hbalanced := hself (hkept.of_prefix (prefix_append _ _))
  refine ⟨fun peer => movesOnto peer past, ?_, hbalanced.covered proposal hfresh, ?_⟩
  · have hreports : (fun peer => firstReported peer
        (past ++ [⟨.deployWorkload ⟨id, proposal⟩ workload proposal.toNode, .ok ()⟩])) = fun peer => firstReported peer past := by
      funext peer
      rw [firstReported_append]
      exact or_none
    rw [hreports]
    exact hbalanced
  funext peer
  rw [movesOnto_append]
  by_cases hpeer : proposal.toNode = peer
  · simp [deployedOnto, hpeer]
  · simp [deployedOnto, hpeer]

theorem registerMove_balanced (move : Move) (ms : Int) :
    Fallible.Ensures anyEvent (Upon deps tick (Owes deps tick fresh move.proposal)) (registerMove deps move ms)
      (fun past _ self => Upon deps tick (Balanced deps tick (elsewhere fresh move.proposal)) past self)
      (Upon deps tick (Balanced deps tick fresh)) := by
  have hthrown : ∀ past self, ¬Kept deps tick past → Upon deps tick (Balanced deps tick fresh) past self :=
    fun _ _ hbroken hkept => absurd hkept hbroken
  have hskipped : FollowsDeploy (.execution (skippedEvict deps move.proposal ms)) := ⟨_, rfl⟩
  have hproposal : FollowsDeploy (.proposal (moveProposalEntry deps move.proposal ms)) := ⟨_, _, _, _, rfl⟩
  have hwrites : Preserves deps tick (Owes deps tick fresh move.proposal)
      (writeSkippedEvictAndMoveProposal deps move.proposal ms) (Upon deps tick (Balanced deps tick fresh)) :=
    Fallible.Ensures.bind (write_following hthrown hskipped) fun _ => write_following hthrown hproposal
  have hreserve : Fallible.Ensures anyEvent (Upon deps tick (Owes deps tick fresh move.proposal))
      (reserveDestinationCapacity deps move.proposal.toNode (minRequiredFreeMb deps move.proposal.workloadMemoryMb))
      (fun past _ self => Upon deps tick (Balanced deps tick (elsewhere fresh move.proposal)) past self)
      (Upon deps tick (Balanced deps tick fresh)) := by
    refine Fallible.Ensures.lift fun past self howes => ?_
    refine Ends.bind (reserveDestinationCapacity_ends tick self _ _) fun after result hresult hkept => ?_
    obtain ⟨held, hheld, hpaid⟩ := (howes.quietly hresult.1 hkept).paid
    rw [hresult.2 hkept held hheld]
    exact hpaid
  unfold registerMove
  refine Fallible.Ensures.bind hwrites fun _ => hreserve.bind fun _ => ?_
  refine Fallible.Ensures.bind (markMoveInFlight_preserves move.proposal.workload) fun _ => ?_
  refine Fallible.Ensures.bind preserves_clock fun deployedAtMs => Fallible.Ensures.modify fun past self hself hkept => ?_
  exact (hself hkept).same rfl

/-- The proposals that stay covered after an execution with this outcome. -/
def freshAfter (fresh : List MoveProposal) (proposal : MoveProposal) (outcome : MoveOutcome) : List MoveProposal :=
  if outcome = .pendingHealthCheck then elsewhere fresh proposal else fresh

theorem recordDeploy_balanced (move : Move) (ms : Int) (reply : Except String Unit) :
    Fallible.Ensures anyEvent
      (fun past self => match reply with
        | .ok _ => Upon deps tick (Owes deps tick fresh move.proposal) past self
        | .error _ => Upon deps tick (Balanced deps tick fresh) past self)
      (recordDeploy deps move ms reply)
      (fun past outcome self => Upon deps tick (Balanced deps tick (freshAfter fresh move.proposal outcome)) past self)
      (Upon deps tick (Balanced deps tick fresh)) := by
  cases reply with
  | ok value => exact (registerMove_balanced move ms).bind fun _ => Fallible.Ensures.pure fun _ _ hself => hself
  | error message =>
    refine Fallible.Ensures.bind preserves_clock fun failedMs => Fallible.Ensures.bind (preserves_write _) fun _ => ?_
    exact Fallible.Ensures.bind (markMoveInFlight_preserves move.proposal.workload) fun _ =>
      Fallible.Ensures.pure fun _ _ hself => hself

theorem deployMove_balanced (hfresh : proposal ∈ fresh) :
    Fallible.Ensures anyEvent (Upon deps tick (Balanced deps tick fresh)) (deployMove deps proposal)
      (fun past outcome self => Upon deps tick (Balanced deps tick (freshAfter fresh proposal outcome)) past self)
      (Upon deps tick (Balanced deps tick fresh)) := by
  unfold deployMove
  refine Fallible.Ensures.bind preserves_clock fun ms => Fallible.Ensures.get_bind fun before => ?_
  have hcount : Fallible.Ensures anyEvent (fun past self => Upon deps tick (Balanced deps tick fresh) past self ∧ self = before)
      (Fallible.modify fun self => { self with deploys := self.deploys + 1 })
      (fun past _ self => Upon deps tick (Balanced deps tick fresh) past self) (Upon deps tick (Balanced deps tick fresh)) :=
    Fallible.Ensures.modify fun past self hself hkept => (hself.1 hkept).same rfl
  refine hcount.bind fun _ => Fallible.Ensures.bind (Fallible.Ensures.issue (fun _ _ _ _ => trivial) ?_)
    fun reply => recordDeploy_balanced ⟨before.deploys, proposal⟩ ms reply
  intro past self reply hself
  cases reply with
  | ok value => exact Balanced.owes hself hfresh
  | error message =>
    refine hself.quietly ⟨prefix_append _ _, fun peer => ?_, fun peer => ?_⟩
    · rw [firstReported_append]
      exact or_none
    · rw [movesOnto_append]
      exact append_nil _

theorem preflightMove_balanced (hfresh : proposal ∈ fresh) :
    Fallible.Ensures anyEvent (Upon deps tick (Balanced deps tick fresh)) (preflightMove deps proposal)
      (fun past outcome self => Upon deps tick (Balanced deps tick (freshAfter fresh proposal outcome)) past self)
      (Upon deps tick (Balanced deps tick fresh)) := by
  have hfetch : Preserves deps tick (Balanced deps tick fresh) (safeFetchSnapshot none proposal.toNode)
      (Upon deps tick (Balanced deps tick fresh)) := by
    refine Fallible.Ensures.lift fun past self hself => ?_
    refine Ends.bind (safeFetchSnapshot_ends none proposal.toNode) fun after snapshot hreads hkept => ?_
    have hbalanced := hself (hkept.of_prefix hreads.longer)
    have hreports : (fun peer => firstReported peer after) = fun peer => firstReported peer past := by
      funext peer
      rw [hreads.reports]
      by_cases hpeer : proposal.toNode = peer
      · subst hpeer
        obtain ⟨mb, hmb, -⟩ := hbalanced.covered proposal hfresh
        have hprojects := hbalanced.table proposal.toNode
        cases hreport : firstReported proposal.toNode past with
        | some free => rfl
        | none =>
          rw [hreport] at hprojects
          exact absurd rfl (hprojects.2 _ hmb)
      · rw [if_neg hpeer, or_none]
    rw [hreports, funext hreads.moves]
    exact hbalanced
  unfold preflightMove
  refine Fallible.Ensures.bind hfetch fun snapshot => ?_
  cases snapshot with
  | none => exact Fallible.Ensures.pure fun _ _ hself => hself
  | some snapshot =>
    dsimp only
    split
    · exact deployMove_balanced hfresh
    · exact Fallible.Ensures.pure fun _ _ hself => hself

theorem executeMove_balanced (hfresh : proposal ∈ fresh) :
    Fallible.Ensures anyEvent (Upon deps tick (Balanced deps tick fresh)) (executeMove deps proposal)
      (fun past outcome self => Upon deps tick (Balanced deps tick (freshAfter fresh proposal outcome)) past self)
      (Upon deps tick (Balanced deps tick fresh)) := by
  unfold executeMove
  refine Fallible.Ensures.get_bind fun before => ?_
  refine Fallible.Ensures.strengthen (fun past self hself => hself.1) ?_
  split
  · refine Fallible.Ensures.bind preserves_clock fun ms => Fallible.Ensures.bind (preserves_write _) fun _ => ?_
    exact Fallible.Ensures.pure fun _ _ hself => hself
  split
  · exact Fallible.Ensures.pure fun _ _ hself => hself
  refine Fallible.Ensures.bind (preserves_issue trivial) fun holder => ?_
  split
  · exact Fallible.Ensures.pure fun _ _ hself => hself
  have hexpired : Preserves deps tick (Balanced deps tick fresh) (moveExpired proposal)
      (Upon deps tick (Balanced deps tick fresh)) :=
    preserves_unjournaled (fun hbalanced hsame => hbalanced.same hsame) fun self =>
      ((moveExpired_clock proposal).allow fun _ => Clock.quiet).bind fun _ _ => rfl
  refine Fallible.Ensures.bind hexpired fun expired => ?_
  split
  · exact Fallible.Ensures.pure fun _ _ hself => hself
  · exact preflightMove_balanced hfresh

end

section

/-- A call to the controller that came back; `none` for an execution that threw. -/
inductive Step where
  | evaluated (proposal : Option MoveProposal)
  | executed (proposal : MoveProposal) (outcome : Option MoveOutcome)
  deriving DecidableEq

variable (deps) in
/-- A sequence of evaluations and executions, each awaited before the next. -/
inductive Session (start : MigrationController) : List Step → List FEvent → MigrationController → Prop where
  | nil : Session start [] [] start
  | evaluate {steps past self} (workload : MigrationWorkload) (snapshot : NodeSnapshot) {trace proposal after}
      (hbefore : Session start steps past self)
      (hrun : (evaluateMove deps workload snapshot self).Runs trace (some proposal, after)) :
      Session start (steps ++ [.evaluated proposal]) (past ++ trace) after
  | execute {steps past self} (proposal : MoveProposal) {trace outcome after}
      (hbefore : Session start steps past self) (hrun : (executeMove deps proposal self).Runs trace (outcome, after)) :
      Session start (steps ++ [.executed proposal outcome]) (past ++ trace) after

/-- The proposals evaluated since the last deploy onto their destination. -/
def freshOf (steps : List Step) : List MoveProposal :=
  steps.foldl (fun fresh step =>
    match step with
    | .evaluated proposal => proposal.toList ++ fresh
    | .executed proposal (some outcome) => freshAfter fresh proposal outcome
    | .executed _ none => fresh) []

/-- Every proposal is executed before another deploy onto its destination. -/
def Prompt (steps : List Step) : Prop :=
  ∀ before proposal outcome after, steps = before ++ .executed proposal outcome :: after → proposal ∈ freshOf before

theorem Prompt.of_append {steps more : List Step} (hprompt : Prompt (steps ++ more)) : Prompt steps := by
  rintro before proposal outcome after rfl
  exact hprompt before proposal outcome (after ++ more) (by simp)

theorem freshOf_append (steps : List Step) (step : Step) : freshOf (steps ++ [step]) =
    match step with
    | .evaluated proposal => proposal.toList ++ freshOf steps
    | .executed proposal (some outcome) => freshAfter (freshOf steps) proposal outcome
    | .executed _ none => freshOf steps := by
  unfold freshOf
  rw [foldl_append]
  rfl

theorem evaluateMove_balanced (fresh : List MoveProposal) (workload : MigrationWorkload) (snapshot : NodeSnapshot) :
    Fallible.Ensures anyEvent (Upon deps tick (Balanced deps tick fresh)) (evaluateMove deps workload snapshot)
      (fun past proposal self => Upon deps tick (Balanced deps tick (proposal.toList ++ fresh)) past self)
      (Upon deps tick (Balanced deps tick fresh)) :=
  Fallible.Ensures.lift fun _ _ hself => evaluateMove_ends workload snapshot hself

theorem Session.balanced {start : MigrationController} {steps : List Step}
    (hstart : ∀ peer held, start.destinationCapacityReservations.get? peer = some held → held.tick ≠ tick)
    (hsession : Session deps start steps past self) (hprompt : Prompt steps) :
    Upon deps tick (Balanced deps tick (freshOf steps)) past self := by
  induction hsession with
  | nil => exact fun _ => ⟨fun peer => ⟨rfl, hstart peer⟩, fun _ hmoves => absurd rfl hmoves, nofun⟩
  | evaluate workload snapshot hbefore hrun ih =>
    rw [freshOf_append]
    exact ((evaluateMove_balanced _ workload snapshot _ _ (ih hprompt.of_append)).sound hrun).2
  | @execute steps past self proposal trace outcome after hbefore hrun ih =>
    have hfresh : proposal ∈ freshOf steps := hprompt steps proposal outcome [] rfl
    have hdone := ((executeMove_balanced hfresh _ _ (ih hprompt.of_append)).sound hrun).2
    rw [freshOf_append]
    cases outcome with
    | none => exact hdone
    | some outcome => exact hdone

def extend (deps : MigrationControllerDeps) (answer : (call : Call) → Reply call)
    (session : List Step × List FEvent × MigrationController) : Operation → List Step × List FEvent × MigrationController
  | .evaluate workload snapshot =>
    let run := (evaluateMove deps workload snapshot session.2.2).answeredBy (fun _ => answer) []
    match run.2.1 with
    | some proposal => (session.1 ++ [.evaluated proposal], session.2.1 ++ run.1, run.2.2)
    | none => session
  | .execute proposal =>
    let run := (executeMove deps proposal session.2.2).answeredBy (fun _ => answer) []
    (session.1 ++ [.executed proposal run.2.1], session.2.1 ++ run.1, run.2.2)
  | .advance => session

theorem session_extend {start : MigrationController} {answer : (call : Call) → Reply call}
    {session : List Step × List FEvent × MigrationController}
    (hsession : Session deps start session.1 session.2.1 session.2.2) (operation : Operation) :
    Session deps start (extend deps answer session operation).1 (extend deps answer session operation).2.1
      (extend deps answer session operation).2.2 := by
  cases operation with
  | advance => exact hsession
  | execute proposal => exact .execute proposal hsession (Prog.answeredBy_nil_runs _ _)
  | evaluate workload snapshot =>
    have hrun := Prog.answeredBy_nil_runs (fun _ => answer) (evaluateMove deps workload snapshot session.2.2)
    unfold extend
    dsimp only
    split
    · rename_i proposal hproposal
      refine .evaluate workload snapshot hsession ?_
      rw [← hproposal]
      exact hrun
    · exact hsession

theorem session_foldl {start : MigrationController} {answer : (call : Call) → Reply call} (operations : List Operation) :
    ∀ session, Session deps start session.1 session.2.1 session.2.2 →
      Session deps start (operations.foldl (extend deps answer) session).1
        (operations.foldl (extend deps answer) session).2.1 (operations.foldl (extend deps answer) session).2.2 := by
  induction operations with
  | nil => exact fun _ hsession => hsession
  | cons operation operations ih => exact fun session hsession => ih _ (session_extend hsession operation)

/-- A decision that the history was kept: every reading in the tick, every write done. -/
def keptEvent (deps : MigrationControllerDeps) (tick : Int) : FEvent → Bool
  | ⟨.writeJournalEntry _, .error _⟩ => false
  | event => (tickOf deps event).all (· = tick)

theorem kept_of_all {trace : List FEvent} (hall : trace.all (keptEvent deps tick) = true) : Kept deps tick trace := by
  rw [List.all_eq_true] at hall
  constructor
  · intro event hevent read hread
    have hkept := hall event hevent
    unfold keptEvent at hkept
    split at hkept
    · cases hkept
    · rw [hread] at hkept
      simpa using hkept
  · intro entry message hevent
    exact nomatch hall _ hevent

/-- A fleet of one peer that reports the same free memory all along. -/
def onePeer (freeMb : Int) : (call : Call) → Reply call
  | .getLeaseHolder => some "n"
  | .canSeeFreshDestinationPeer => true
  | .isPeerMovingWorkload _ => false
  | .getNowMs => 0
  | .getCurrentTick => 7
  | .fetchSnapshot _ _ => .ok { pressureState := .normal, freeMb := some (.finite freeMb) }
  | .deployWorkload _ _ _ => .ok ()
  | .removeWorkload _ _ _ _ => .ok ()
  | .writeJournalEntry _ => .ok ()

def onePeerController : MigrationControllerDeps := { peers := ["p"], selfNode := "n", getCurrentTick := true }

def evaluateOn (name : String) : Operation :=
  .evaluate { name, memoryMb := some (.finite 600) } { node := some "n", pressureState := .high }

def moveOf (name : String) : MoveProposal :=
  { workload := name
    fromNode := "n"
    toNode := "p"
    proposalId := s!"move-{name}-0"
    evictProposalId := s!"evict-{name}-0"
    expiresAt := .instant 30000
    expiresAtMs := some (.whole 30000)
    workloadMemoryMb := some (.finite 600) }

def onePeerSession (freeMb : Int) (operations : List Operation) : List Step × List FEvent × MigrationController :=
  operations.foldl (extend onePeerController (onePeer freeMb)) ([], [], {})

theorem onePeerSession_session (freeMb : Int) (operations : List Operation) :
    Session onePeerController {} (onePeerSession freeMb operations).1 (onePeerSession freeMb operations).2.1
      (onePeerSession freeMb operations).2.2 :=
  session_foldl operations ([], [], {}) .nil

/-- Each proposal executed as it comes: two moves fit into what the peer reported. -/
def inTurn : List Operation := [evaluateOn "a", .execute (moveOf "a"), evaluateOn "b", .execute (moveOf "b")]

end

end llamactl.fleet.migration.faulty
