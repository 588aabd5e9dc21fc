import Llamactl.Fleet.Migration.Controller

open collections effect js

namespace llamactl.fleet.migration

variable (deps : MigrationControllerDeps)

def safeFetchSnapshot (move : Option Move) (node : String) : MProg (Option NodeSnapshot) := do
  match ← Prog.issue (Call.fetchSnapshot move node) with
  | .ok snapshot => return some snapshot
  | .error _ => return none

/-- The peers' snapshots, with the peers that could not be read left out. -/
def fetchPeerSnapshots : List String → MProg (List (String × NodeSnapshot))
  | [] => return []
  | peer :: peers => do
    let snapshot ← safeFetchSnapshot none peer
    let rest ← fetchPeerSnapshots peers
    match snapshot with
    | some snapshot => return (peer, snapshot) :: rest
    | none => return rest

/-- The best destination found so far: its name and projected free memory. -/
structure BestDestination where
  node : Option String := none
  freeMb : Int := -1

/-- The projected free memory of a peer that reports a number, else `none`. -/
def projectPeer (self : MigrationController) (peer : String) (snapshot : NodeSnapshot) :
    MProg (Option Megabytes × MigrationController) :=
  match snapshot.freeMb with
  | none => return (none, self)
  | some freeMb => do
    let projected ← getOrInitDestinationProjection deps self peer freeMb
    return (some projected.1, projected.2)

/-- One iteration of the destination search. -/
def considerPeer (requiredFreeMb : Int) (state : BestDestination × MigrationController)
    (entry : String × NodeSnapshot) : MProg (BestDestination × MigrationController) := do
  let projected ← projectPeer deps state.2 entry.1 entry.2
  match entry.2.pressureState, projected.1 with
  | .normal, some (.finite projectedFreeMb) =>
    if requiredFreeMb ≤ projectedFreeMb ∧ state.1.freeMb < projectedFreeMb then
      return ({ node := some entry.1, freeMb := projectedFreeMb }, projected.2)
    else return (state.1, projected.2)
  | _, _ => return (state.1, projected.2)

def findBestDestination (self : MigrationController) (fromNode : String) (requiredFreeMb : Int) :
    MProg (Option String × MigrationController) := do
  let snapshots ← fetchPeerSnapshots (deps.peers.filter fun peer => peer ≠ fromNode)
  let found ← snapshots.foldlM (considerPeer deps requiredFreeMb) ({}, self)
  return (found.1.node, found.2)

/-- The move proposal for a chosen destination; the clock is read once for each
    field that carries a time. -/
def buildMoveProposal (workload : MigrationWorkload) (fromNode toNode : String) :
    MProg MoveProposal := do
  let idMs ← nowMs
  let evictProposalId ←
    match workload.evictProposalId with
    | some id => pure id
    | none => do
      let evictMs ← nowMs
      pure s!"evict-{workload.name}-{evictMs}"
  let expiresMs ← nowMs
  let expiresAtMs ← nowMs
  return {
    workload := workload.name
    fromNode
    toNode
    proposalId := s!"move-{workload.name}-{idMs}"
    evictProposalId
    expiresAt := .instant (expiresMs + moveProposalTtlMs)
    expiresAtMs := some (.whole (expiresAtMs + moveProposalTtlMs))
    workloadMemoryMb := workload.memoryMb }

/-- Whether an optional boolean callback, when supplied, answers `true`. -/
def suppliedFlag (supplied default : Bool) (call : MProg Bool) : MProg Bool :=
  if supplied then call else return default

/-- The last part of the evaluation: choose a destination off `fromNode`. -/
def proposeMove (self : MigrationController) (workload : MigrationWorkload)
    (fromNode : Option String) : MProg (Option MoveProposal × MigrationController) :=
  match fromNode with
  | none => return (none, self)
  | some fromNode =>
    if fromNode = "" then return (none, self)
    else do
      let best ← findBestDestination deps self fromNode (minRequiredFreeMb deps workload.memoryMb)
      match best.1 with
      | none => return (none, best.2)
      | some toNode =>
        if toNode = "" then return (none, best.2)
        else return (some (← buildMoveProposal workload fromNode toNode), best.2)

def evaluateMove (self : MigrationController) (workload : MigrationWorkload)
    (snapshot : NodeSnapshot) : MProg (Option MoveProposal × MigrationController) :=
  if snapshot.pressureState ≠ .high then return (none, self)
  else do
    let holder ← Prog.issue Call.getLeaseHolder
    if holder ≠ some deps.selfNode then return (none, self)
    else
      let visible ← suppliedFlag deps.canSeeFreshDestinationPeer true
        (Prog.issue Call.canSeeFreshDestinationPeer)
      if !visible then return (none, self)
      else if workload.placement = some "pinned" then return (none, self)
      else
        let cooldown ← isInMoveCooldown deps self workload.name
        let self := cooldown.2
        if cooldown.1 then return (none, self)
        else if self.pendingHealthPolls.has workload.name then return (none, self)
        else
          let peerMoving ← suppliedFlag deps.isPeerMovingWorkload false
            (Prog.issue (Call.isPeerMovingWorkload workload.name))
          if peerMoving then return (none, self)
          else proposeMove deps self workload (snapshot.node <|> workload.node)

variable (deps : MigrationControllerDeps)

inductive MoveOutcome where
  | executed
  | timedOut
  | destinationUnavailable
  | applyFailed
  | pendingHealthCheck
  | leaseLost
  deriving DecidableEq

def buildMoveAction (proposal : MoveProposal) : FleetProposalAction :=
  .move proposal.workload proposal.fromNode proposal.toNode "rebalance"

def moveExecution (proposal : MoveProposal) (ms : Int) (status : ExecutionStatus)
    (reason : Option String) : FleetJournalEntry :=
  .execution {
    ts := .instant ms
    node := deps.selfNode
    proposalId := proposal.proposalId
    action := buildMoveAction proposal
    status
    reason }

def writeJournalEntry (entry : FleetJournalEntry) : MProg Unit :=
  Prog.issue (Call.writeJournalEntry entry)

def skippedEvict (proposal : MoveProposal) (ms : Int) : FleetExecutionEntry :=
  { ts := .instant ms
    node := deps.selfNode
    proposalId := proposal.evictProposalId
    action := .evict proposal.workload s!"evict suppressed by move {proposal.proposalId}"
    status := .skipped
    reason := some s!"evict suppressed by move {proposal.proposalId}" }

def moveProposalEntry (proposal : MoveProposal) (ms : Int) : FleetProposalEntry :=
  { ts := .instant ms
    node := deps.selfNode
    proposalId := proposal.proposalId
    transition := {
      subject := proposal.workload
      subjectKind := .workload
      signal := .placement
      from_ := proposal.fromNode
      to_ := proposal.toNode }
    action := buildMoveAction proposal
    expiresAt := some proposal.expiresAt }

def writeSkippedEvictAndMoveProposal (proposal : MoveProposal) (ms : Int) : MProg Unit := do
  writeJournalEntry (.execution (skippedEvict deps proposal ms))
  writeJournalEntry (.proposal (moveProposalEntry deps proposal ms))

/-- The instant a proposal expires: the number it carries, else its text parsed. -/
def moveExpiry (proposal : MoveProposal) : Number :=
  proposal.expiresAtMs.getD (((Date.parse proposal.expiresAt).map Number.whole).getD .nonFinite)

/-- Whether the proposal has expired; the clock is read only for a finite
    expiry. -/
def moveExpired (proposal : MoveProposal) : MProg Bool :=
  if (moveExpiry proposal).isFinite then do return (moveExpiry proposal).below (← nowMs)
  else return true

/-- The destination can take the workload: NORMAL with enough finite memory. -/
def destinationViable (requiredFreeMb : Int) (snapshot : NodeSnapshot) : Bool :=
  match snapshot.pressureState, snapshot.freeMb with
  | .normal, some (.finite destFreeMb) => requiredFreeMb ≤ destFreeMb
  | _, _ => false

/-- Bookkeeping after a successful deploy: journal the move, reserve capacity,
    arm the cooldown and register the health poll. -/
def registerMove (self : MigrationController) (move : Move) (ms : Int) :
    MProg MigrationController := do
  writeSkippedEvictAndMoveProposal deps move.proposal ms
  let self ← reserveDestinationCapacity deps self move.proposal.toNode
    (minRequiredFreeMb deps move.proposal.workloadMemoryMb)
  let self ← markMoveInFlight deps self move.proposal.workload
  let deployedAtMs ← nowMs
  return { self with
    pendingHealthPolls := self.pendingHealthPolls.set move.proposal.workload
      { move, deployedAtMs, destinationReachableObserved := false } }

/-- Record the outcome of a deploy; a failed one also arms the cooldown. -/
def recordDeploy (self : MigrationController) (move : Move) (ms : Int) :
    Except String Unit → MProg (MoveOutcome × MigrationController)
  | .error message => do
    let failedMs ← nowMs
    writeJournalEntry (moveExecution deps move.proposal failedMs .failed
      (some s!"apply failed: {message}"))
    return (.applyFailed, ← markMoveInFlight deps self move.proposal.workload)
  | .ok _ => do return (.pendingHealthCheck, ← registerMove deps self move ms)

def deployMove (self : MigrationController) (proposal : MoveProposal) :
    MProg (MoveOutcome × MigrationController) := do
  let ms ← nowMs
  let move : Move := ⟨self.deploys, proposal⟩
  let reply ← Prog.issue (Call.deployWorkload move proposal.workload proposal.toNode)
  recordDeploy deps { self with deploys := self.deploys + 1 } move ms reply

def preflightMove (self : MigrationController) (proposal : MoveProposal) :
    MProg (MoveOutcome × MigrationController) := do
  match ← safeFetchSnapshot none proposal.toNode with
  | none => return (.destinationUnavailable, self)
  | some snapshot =>
    if destinationViable (minRequiredFreeMb deps proposal.workloadMemoryMb) snapshot then
      deployMove deps self proposal
    else return (.destinationUnavailable, self)

def executeMove (self : MigrationController) (proposal : MoveProposal) :
    MProg (MoveOutcome × MigrationController) :=
  if self.pendingHealthPolls.has proposal.workload then do
    let ms ← nowMs
    writeJournalEntry (moveExecution deps proposal ms .failed
      (some "refused to overwrite active health poll"))
    return (.applyFailed, self)
  else if !(deps.deployWorkload && deps.removeWorkload) then return (.destinationUnavailable, self)
  else do
    let holder ← Prog.issue Call.getLeaseHolder
    if holder ≠ some deps.selfNode then return (.leaseLost, self)
    else if ← moveExpired proposal then return (.timedOut, self)
    else preflightMove deps self proposal

variable (deps : MigrationControllerDeps)

def showsReachable (workload : String) (snapshot : NodeSnapshot) : Bool :=
  match snapshot.workloads with
  | some entries => entries.any fun entry => entry.name = workload && entry.reachable
  | none => false

/-- Probe the destination unless it was already observed reachable; the
    observation is kept on the registered poll. -/
def observeDestinationReachable (self : MigrationController) (workloadName : String)
    (poll : PendingHealthPoll) : MProg (Bool × MigrationController) :=
  if poll.destinationReachableObserved then return (true, self)
  else do
    let snapshot ← safeFetchSnapshot (some poll.move) poll.move.proposal.toNode
    let reachable :=
      match snapshot with
      | some snapshot => showsReachable poll.move.proposal.workload snapshot
      | none => false
    if reachable then
      return (true, { self with
        pendingHealthPolls := self.pendingHealthPolls.set workloadName
          { poll with destinationReachableObserved := true } })
    else return (false, self)

/-- Remove one copy of a moved workload. A thrown removal is journaled and
    leaves the poll for a retry; a returned one drops the poll. -/
def removeCopy (self : MigrationController) (workloadName : String) (move : Move) (copy : Copy)
    (ms : Int) (failedReason : String → String) (status : ExecutionStatus)
    (reason : Option String) : MProg MigrationController := do
  match ← Prog.issue (Call.removeWorkload move copy move.proposal.workload
      (copy.node move.proposal)) with
  | .error message =>
    writeJournalEntry (moveExecution deps move.proposal ms .failed (some (failedReason message)))
    return self
  | .ok _ =>
    let self := { self with pendingHealthPolls := self.pendingHealthPolls.erase workloadName }
    writeJournalEntry (moveExecution deps move.proposal ms status reason)
    return self

def cleanupTimedOutDeploy (self : MigrationController) (workloadName : String) (move : Move)
    (ms : Int) : MProg MigrationController :=
  removeCopy deps self workloadName move .destination ms
    (fun message => "timeout waiting for destination health; destination cleanup failed: " ++
      message ++ "; will retry")
    .failed (some "timeout waiting for destination health")

def completeMoveBySourceRemoval (self : MigrationController) (workloadName : String) (move : Move)
    (ms : Int) : MProg MigrationController :=
  removeCopy deps self workloadName move .source ms
    (fun message => "remove failed: " ++ message ++ "; will retry") .executed none

def advanceSinglePendingPoll (self : MigrationController) (workloadName : String)
    (poll : PendingHealthPoll) : MProg MigrationController := do
  let ms ← nowMs
  let now ← nowMs
  let timedOut := decide (now > poll.deployedAtMs + deps.healthTimeoutMs)
  if timedOut && !poll.destinationReachableObserved then
    cleanupTimedOutDeploy deps self workloadName poll.move ms
  else
    let observed ← observeDestinationReachable self workloadName poll
    if observed.1 then completeMoveBySourceRemoval deps observed.2 workloadName poll.move ms
    else return observed.2

/-- The loop body: the poll registered under the key, if it is still there. -/
def advanceKey (self : MigrationController) (workloadName : String) : MProg MigrationController :=
  match self.pendingHealthPolls.get? workloadName with
  | some poll => advanceSinglePendingPoll deps self workloadName poll
  | none => return self

/-- Each iteration touches only its own key, so visiting the keys present at
    the start visits exactly what the live iteration of the source visits. -/
def advancePendingHealthPolls (self : MigrationController) : MProg MigrationController :=
  if deps.removeWorkload then self.pendingHealthPolls.keys.foldlM (advanceKey deps) self
  else return self

/-- One call of the controller's public interface. -/
inductive Operation where
  | evaluate (workload : MigrationWorkload) (snapshot : NodeSnapshot)
  | execute (proposal : MoveProposal)
  | advance

def perform (self : MigrationController) : Operation → MProg MigrationController
  | .evaluate workload snapshot => do return (← evaluateMove deps self workload snapshot).2
  | .execute proposal => do return (← executeMove deps self proposal).2
  | .advance => advancePendingHealthPolls deps self

/-- A sequence of operations, each awaited before the next. -/
def performAll (operations : List Operation) (self : MigrationController) :
    MProg MigrationController :=
  operations.foldlM (perform deps) self

end llamactl.fleet.migration
