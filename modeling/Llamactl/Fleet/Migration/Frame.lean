import Llamactl.Effect.History
import Llamactl.Fleet.Migration.Execute

open collections effect js List

namespace llamactl.fleet.migration

variable (deps : MigrationControllerDeps)

/-- The call changes nothing outside the controller. -/
def Observes : Call → Prop
  | .deployWorkload _ _ _ => False
  | .removeWorkload _ _ _ _ => False
  | .writeJournalEntry _ => False
  | _ => True

/-- The call asks for the time or the tick. -/
def Clock : Call → Prop
  | .getNowMs | .getCurrentTick => True
  | _ => False

theorem Clock.observes {call : Call} (h : Clock call) : Observes call := by
  cases call <;> first | exact trivial | exact h

/-- Two controller states with the same pending polls and the same number of
    issued deploys. -/
structure SameMoves (before after : MigrationController) : Prop where
  polls : after.pendingHealthPolls = before.pendingHealthPolls
  deploys : after.deploys = before.deploys

theorem SameMoves.refl (self : MigrationController) : SameMoves self self := ⟨rfl, rfl⟩

theorem SameMoves.trans {a b c : MigrationController} (hab : SameMoves a b) (hbc : SameMoves b c) :
    SameMoves a c :=
  ⟨hbc.polls.trans hab.polls, hbc.deploys.trans hab.deploys⟩

theorem reservationTick_only : (reservationTick deps).Only Observes fun _ => True := by
  unfold reservationTick
  split
  · exact ⟨trivial, fun _ => trivial⟩
  · exact ⟨trivial, fun _ => trivial⟩

/-- The states differ at most in the reserved capacities. -/
def OnlyReserves (before after : MigrationController) : Prop :=
  after = { before with destinationCapacityReservations := after.destinationCapacityReservations }

theorem OnlyReserves.refl (self : MigrationController) : OnlyReserves self self := rfl

theorem OnlyReserves.trans {a b c : MigrationController} (hab : OnlyReserves a b) (hbc : OnlyReserves b c) :
    OnlyReserves a c := by
  unfold OnlyReserves at hab hbc ⊢
  rw [hbc, hab]

theorem OnlyReserves.same {a b : MigrationController} (h : OnlyReserves a b) : SameMoves a b := by
  rw [h]
  exact ⟨rfl, rfl⟩

theorem setReservation_reserves (self : MigrationController) (peer : String) (freeMb : Megabytes) :
    (setReservation deps self peer freeMb).Only Observes (OnlyReserves self) :=
  (reservationTick_only deps).bind fun _ _ => rfl

theorem getOrInitDestinationProjection_reserves (self : MigrationController) (peer : String) (freeMb : Megabytes) :
    (getOrInitDestinationProjection deps self peer freeMb).Only Observes fun result => OnlyReserves self result.2 := by
  refine (reservationTick_only deps).bind fun tick _ => ?_
  have hset : ((setReservation deps self peer freeMb).bind fun next => Prog.ret (freeMb, next)).Only
      Observes fun result => OnlyReserves self result.2 :=
    (setReservation_reserves deps self peer freeMb).bind fun _ hnext => hnext
  cases self.destinationCapacityReservations.get? peer with
  | none => exact hset
  | some held =>
    by_cases htick : held.tick = tick
    · simp only [htick, if_true]
      exact OnlyReserves.refl self
    · simp only [htick, if_false]
      exact hset

theorem reserveDestinationCapacity_reserves (self : MigrationController) (peer : String) (memoryMb : Int) :
    (reserveDestinationCapacity deps self peer memoryMb).Only Observes (OnlyReserves self) := by
  refine (getOrInitDestinationProjection_reserves deps self peer _).bind fun projected hprojected => ?_
  exact (setReservation_reserves deps projected.2 peer _).mono fun _ hnext => hprojected.trans hnext

theorem reserveDestinationCapacity_only (self : MigrationController) (peer : String) (memoryMb : Int) :
    (reserveDestinationCapacity deps self peer memoryMb).Only Observes (SameMoves self) :=
  (reserveDestinationCapacity_reserves deps self peer memoryMb).mono fun _ hnext => hnext.same

theorem markMoveInFlight_clock (self : MigrationController) (workload : String) :
    (markMoveInFlight deps self workload).Only Clock fun after =>
      SameMoves self after ∧ after.destinationCapacityReservations = self.destinationCapacityReservations := by
  unfold markMoveInFlight suppliedTick
  split
  · exact ⟨trivial, fun _ => ⟨trivial, fun _ => ⟨⟨rfl, rfl⟩, rfl⟩⟩⟩
  · exact ⟨trivial, fun _ => ⟨⟨rfl, rfl⟩, rfl⟩⟩

theorem markMoveInFlight_only (self : MigrationController) (workload : String) :
    (markMoveInFlight deps self workload).Only Observes (SameMoves self) :=
  ((markMoveInFlight_clock deps self workload).allow fun _ => Clock.observes).mono fun _ hsame => hsame.1

theorem isInMoveCooldown_clock (self : MigrationController) (workload : String) :
    (isInMoveCooldown deps self workload).Only Clock fun result => SameMoves self result.2 ∧
      result.2.destinationCapacityReservations = self.destinationCapacityReservations := by
  have hactive (state : InFlightMoveState) : (cooldownActive deps state).Only Clock fun _ => True := by
    unfold cooldownActive
    split
    · exact ⟨trivial, fun _ => trivial⟩
    · exact ⟨trivial, fun _ => trivial⟩
  unfold isInMoveCooldown
  cases self.inFlightMoves.get? workload with
  | none => exact ⟨SameMoves.refl self, rfl⟩
  | some state =>
    refine (hactive state).bind fun active _ => ?_
    cases active
    · exact ⟨⟨rfl, rfl⟩, rfl⟩
    · exact ⟨SameMoves.refl self, rfl⟩

theorem safeFetchSnapshot_only (move : Option Move) (node : String) :
    (safeFetchSnapshot move node).Only Observes fun _ => True := by
  refine ⟨trivial, fun reply => ?_⟩
  cases reply <;> trivial

theorem fetchPeerSnapshots_only (peers : List String) :
    (fetchPeerSnapshots peers).Only Observes fun found => ∀ entry ∈ found, entry.1 ∈ peers := by
  induction peers with
  | nil => exact nofun
  | cons peer peers ih =>
    refine (safeFetchSnapshot_only none peer).bind fun snapshot _ => ih.bind fun rest hrest => ?_
    cases snapshot with
    | none => exact fun entry hentry => mem_cons_of_mem peer (hrest entry hentry)
    | some snapshot =>
      intro entry hentry
      rcases mem_cons.mp hentry with rfl | htail
      · exact mem_cons_self
      · exact mem_cons_of_mem peer (hrest entry htail)

theorem considerPeer_reserves (requiredFreeMb : Int) (state : BestDestination × MigrationController)
    (entry : String × NodeSnapshot) :
    (considerPeer deps requiredFreeMb state entry).Only Observes fun next =>
      (next.1.node = state.1.node ∨ next.1.node = some entry.1) ∧ OnlyReserves state.2 next.2 := by
  have hproject : (projectPeer deps state.2 entry.1 entry.2).Only Observes fun result => OnlyReserves state.2 result.2 := by
    unfold projectPeer
    cases entry.2.freeMb with
    | none => exact OnlyReserves.refl state.2
    | some freeMb =>
      exact (getOrInitDestinationProjection_reserves deps state.2 entry.1 freeMb).bind fun _ hnext => hnext
  refine hproject.bind fun projected hprojected => ?_
  split
  · split
    · exact ⟨.inr rfl, hprojected⟩
    · exact ⟨.inl rfl, hprojected⟩
  · exact ⟨.inl rfl, hprojected⟩

theorem findBestDestination_reserves (self : MigrationController) (fromNode : String) (requiredFreeMb : Int) :
    (findBestDestination deps self fromNode requiredFreeMb).Only Observes fun best =>
      (∀ node, best.1 = some node → node ∈ deps.peers ∧ node ≠ fromNode) ∧ OnlyReserves self best.2 := by
  refine (fetchPeerSnapshots_only _).bind fun snapshots hsnapshots => ?_
  have hfold : (snapshots.foldlM (considerPeer deps requiredFreeMb) ({}, self)).Only Observes fun found =>
      (∀ node, found.1.node = some node → node ∈ deps.peers ∧ node ≠ fromNode) ∧ OnlyReserves self found.2 := by
    refine Prog.Only.foldlM_mem (fun entry hentry state hstate => ?_) ⟨nofun, OnlyReserves.refl self⟩
    refine (considerPeer_reserves deps requiredFreeMb state entry).mono fun next hnext => ⟨fun node hnode => ?_, ?_⟩
    · obtain hkept | hchosen := hnext.1
      · exact hstate.1 node (hkept ▸ hnode)
      · obtain rfl := Option.some.inj (hchosen.symm.trans hnode)
        simpa using hsnapshots entry hentry
    · exact hstate.2.trans hnext.2
  exact hfold.bind fun _ hfound => hfound

/-- What a proposal for a workload carries: its name, two different nodes, a
move id, and the eviction id the workload came with. -/
structure ProposalFor (workload : MigrationWorkload) (proposal : MoveProposal) : Prop where
  names : proposal.workload = workload.name
  moves : proposal.fromNode ≠ proposal.toNode
  proposalId : ∃ ms : Int, proposal.proposalId = s!"move-{workload.name}-{ms}"
  evictProposalId : ∀ id, workload.evictProposalId = some id → proposal.evictProposalId = id

theorem buildMoveProposal_only (workload : MigrationWorkload) {fromNode toNode : String}
    (hmoves : fromNode ≠ toNode) :
    (buildMoveProposal workload fromNode toNode).Only Observes (ProposalFor workload) := by
  refine ⟨trivial, fun idMs => ?_⟩
  cases hid : workload.evictProposalId with
  | some id =>
    refine ⟨trivial, fun _ => ⟨trivial, fun _ => ⟨rfl, hmoves, ⟨idMs, rfl⟩, ?_⟩⟩⟩
    intro given hgiven
    exact Option.some.inj (hid.symm.trans hgiven)
  | none =>
    refine ⟨trivial, fun _ => ⟨trivial, fun _ => ⟨trivial, fun _ => ⟨rfl, hmoves, ⟨idMs, rfl⟩, ?_⟩⟩⟩⟩
    intro given hgiven
    exact nomatch hid.symm.trans hgiven

theorem suppliedFlag_only {allowed : Call → Prop} (supplied default : Bool) {call : MProg Bool}
    (hcall : call.Only allowed fun _ => True) : (suppliedFlag supplied default call).Only allowed fun _ => True := by
  unfold suppliedFlag
  split
  · exact hcall
  · trivial

theorem proposeMove_reserves (self : MigrationController) (workload : MigrationWorkload) (fromNode : Option String) :
    (proposeMove deps self workload fromNode).Only Observes fun result =>
      (∀ proposal, result.1 = some proposal → ProposalFor workload proposal) ∧
        OnlyReserves self result.2 := by
  unfold proposeMove
  cases fromNode with
  | none => exact ⟨nofun, OnlyReserves.refl self⟩
  | some fromNode =>
    dsimp only
    split
    · exact ⟨nofun, OnlyReserves.refl self⟩
    refine (findBestDestination_reserves deps self fromNode _).bind fun best hbest => ?_
    obtain ⟨hnode, hsame⟩ := hbest
    cases hchosen : best.1 with
    | none => exact ⟨nofun, hsame⟩
    | some toNode =>
      dsimp only
      split
      · exact ⟨nofun, hsame⟩
      have hmoves : fromNode ≠ toNode := (hnode toNode hchosen).2.symm
      refine (buildMoveProposal_only workload hmoves).bind fun proposal hbuilt => ?_
      refine ⟨fun actual hactual => ?_, hsame⟩
      cases hactual
      exact hbuilt

theorem evaluateMove_only (self : MigrationController) (workload : MigrationWorkload) (snapshot : NodeSnapshot) :
    (evaluateMove deps self workload snapshot).Only Observes fun result =>
      (∀ proposal, result.1 = some proposal → ProposalFor workload proposal) ∧
        SameMoves self result.2 := by
  unfold evaluateMove
  have hstay : ∀ {after : MigrationController}, SameMoves self after →
      (Prog.ret (none, after) : MProg (Option MoveProposal × MigrationController)).Only Observes
        fun result => (∀ proposal, result.1 = some proposal → ProposalFor workload proposal) ∧
          SameMoves self result.2 :=
    fun hsame => ⟨nofun, hsame⟩
  split
  · exact hstay (SameMoves.refl self)
  refine ⟨trivial, fun holder => ?_⟩
  dsimp only [Prog.ret_bind]
  split
  · exact hstay (SameMoves.refl self)
  have hvisible : (suppliedFlag deps.canSeeFreshDestinationPeer true
      (Prog.issue Call.canSeeFreshDestinationPeer)).Only Observes fun _ => True :=
    suppliedFlag_only _ _ ⟨trivial, fun _ => trivial⟩
  have hmoving : (suppliedFlag deps.isPeerMovingWorkload false
      (Prog.issue (Call.isPeerMovingWorkload workload.name))).Only Observes fun _ => True :=
    suppliedFlag_only _ _ ⟨trivial, fun _ => trivial⟩
  refine hvisible.bind fun visible _ => ?_
  split
  · exact hstay (SameMoves.refl self)
  split
  · exact hstay (SameMoves.refl self)
  refine ((isInMoveCooldown_clock deps self workload.name).allow fun _ => Clock.observes).bind
    fun cooldown ⟨hcool, _⟩ => ?_
  split
  · exact hstay hcool
  split
  · exact hstay hcool
  refine hmoving.bind fun moving _ => ?_
  split
  · exact hstay hcool
  · refine (proposeMove_reserves deps cooldown.2 workload _).mono fun result hresult => ?_
    exact ⟨hresult.1, hcool.trans hresult.2.same⟩

end llamactl.fleet.migration
