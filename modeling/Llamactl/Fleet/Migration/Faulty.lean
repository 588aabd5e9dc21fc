import Llamactl.Effect.Fallible
import Llamactl.Fleet.Migration.Frame

open collections effect js

namespace llamactl.fleet.migration.faulty

/-! The controller when a journal write may throw. A throw leaves the call at once,
with what was changed on the controller before it. -/

@[reducible] def Reply : Call → Type
  | .getLeaseHolder => Option String
  | .canSeeFreshDestinationPeer => Bool
  | .isPeerMovingWorkload _ => Bool
  | .getNowMs => Int
  | .getCurrentTick => Int
  | .fetchSnapshot _ _ => Except String NodeSnapshot
  | .deployWorkload _ _ _ => Except String Unit
  | .removeWorkload _ _ _ _ => Except String Unit
  | .writeJournalEntry _ => Except String Unit

def settled : (call : Call) → Reply call → migration.Reply call
  | .getLeaseHolder, reply => reply
  | .canSeeFreshDestinationPeer, reply => reply
  | .isPeerMovingWorkload _, reply => reply
  | .getNowMs, reply => reply
  | .getCurrentTick, reply => reply
  | .fetchSnapshot _ _, reply => reply
  | .deployWorkload _ _ _, reply => reply
  | .removeWorkload _ _ _ _, reply => reply
  | .writeJournalEntry _, _ => ()

abbrev FEvent : Type := Event Call Reply

abbrev FProg (S A : Type) : Type := Fallible Call Reply S A

variable {S A : Type}

def writeJournalEntry (entry : FleetJournalEntry) : FProg S Unit :=
  Fallible.attempt (Call.writeJournalEntry entry) fun reply =>
    match reply with
    | .ok _ => false
    | .error _ => true

def nowMs : FProg S Int := Fallible.issue Call.getNowMs

/-- A part of the controller that writes no journal entry. -/
def unjournaled (p : MigrationController → MProg (A × MigrationController)) : FProg MigrationController A :=
  Fallible.lift fun self => (p self).withReplies settled

variable (deps : MigrationControllerDeps)

def markMoveInFlight (workload : String) : FProg MigrationController Unit :=
  unjournaled fun self => do return ((), ← migration.markMoveInFlight deps self workload)

def reserveDestinationCapacity (peer : String) (memoryMb : Int) : FProg MigrationController Unit :=
  unjournaled fun self => do return ((), ← migration.reserveDestinationCapacity deps self peer memoryMb)

def writeSkippedEvictAndMoveProposal (proposal : MoveProposal) (ms : Int) : FProg MigrationController Unit := do
  writeJournalEntry (.execution (skippedEvict deps proposal ms))
  writeJournalEntry (.proposal (moveProposalEntry deps proposal ms))

def registerMove (move : Move) (ms : Int) : FProg MigrationController Unit := do
  writeSkippedEvictAndMoveProposal deps move.proposal ms
  reserveDestinationCapacity deps move.proposal.toNode (minRequiredFreeMb deps move.proposal.workloadMemoryMb)
  markMoveInFlight deps move.proposal.workload
  let deployedAtMs ← nowMs
  Fallible.modify fun self => { self with
    pendingHealthPolls := self.pendingHealthPolls.set move.proposal.workload
      { move, deployedAtMs, destinationReachableObserved := false } }

def recordDeploy (move : Move) (ms : Int) : Except String Unit → FProg MigrationController MoveOutcome
  | .error message => do
    let failedMs ← nowMs
    writeJournalEntry (moveExecution deps move.proposal failedMs .failed (some s!"apply failed: {message}"))
    markMoveInFlight deps move.proposal.workload
    return .applyFailed
  | .ok _ => do
    registerMove deps move ms
    return .pendingHealthCheck

def deployMove (proposal : MoveProposal) : FProg MigrationController MoveOutcome := do
  let ms ← nowMs
  let self ← Fallible.get
  Fallible.modify fun self => { self with deploys := self.deploys + 1 }
  let reply ← Fallible.issue (Call.deployWorkload ⟨self.deploys, proposal⟩ proposal.workload proposal.toNode)
  recordDeploy deps ⟨self.deploys, proposal⟩ ms reply

def safeFetchSnapshot (move : Option Move) (node : String) : FProg MigrationController (Option NodeSnapshot) :=
  unjournaled fun self => do return (← migration.safeFetchSnapshot move node, self)

def preflightMove (proposal : MoveProposal) : FProg MigrationController MoveOutcome := do
  match ← safeFetchSnapshot none proposal.toNode with
  | none => return .destinationUnavailable
  | some snapshot =>
    if destinationViable (minRequiredFreeMb deps proposal.workloadMemoryMb) snapshot then deployMove deps proposal
    else return .destinationUnavailable

def moveExpired (proposal : MoveProposal) : FProg MigrationController Bool :=
  unjournaled fun self => do return (← migration.moveExpired proposal, self)

def executeMove (proposal : MoveProposal) : FProg MigrationController MoveOutcome := do
  if (← Fallible.get).pendingHealthPolls.has proposal.workload then
    let ms ← nowMs
    writeJournalEntry (moveExecution deps proposal ms .failed (some "refused to overwrite active health poll"))
    return .applyFailed
  else if !(deps.deployWorkload && deps.removeWorkload) then return .destinationUnavailable
  else
    let holder ← Fallible.issue Call.getLeaseHolder
    if holder ≠ some deps.selfNode then return .leaseLost
    else if ← moveExpired proposal then return .timedOut
    else preflightMove deps proposal

def evaluateMove (workload : MigrationWorkload) (snapshot : NodeSnapshot) :
    FProg MigrationController (Option MoveProposal) :=
  unjournaled fun self => migration.evaluateMove deps self workload snapshot

/-- A thrown removal is journaled and leaves the poll; a returned one drops the
poll before it is journaled. -/
def removeCopy (workloadName : String) (move : Move) (copy : Copy) (ms : Int) (failedReason : String → String)
    (status : ExecutionStatus) (reason : Option String) : FProg MigrationController Unit := do
  let reply : Except String Unit ← Fallible.issue
    (Call.removeWorkload move copy move.proposal.workload (copy.node move.proposal))
  match reply with
  | .error message =>
    writeJournalEntry (moveExecution deps move.proposal ms .failed (some (failedReason message)))
  | .ok _ =>
    Fallible.modify fun self => { self with pendingHealthPolls := self.pendingHealthPolls.erase workloadName }
    writeJournalEntry (moveExecution deps move.proposal ms status reason)

def cleanupTimedOutDeploy (workloadName : String) (move : Move) (ms : Int) : FProg MigrationController Unit :=
  removeCopy deps workloadName move .destination ms
    (fun message => "timeout waiting for destination health; destination cleanup failed: " ++
      message ++ "; will retry")
    .failed (some "timeout waiting for destination health")

def completeMoveBySourceRemoval (workloadName : String) (move : Move) (ms : Int) : FProg MigrationController Unit :=
  removeCopy deps workloadName move .source ms
    (fun message => "remove failed: " ++ message ++ "; will retry") .executed none

def observeDestinationReachable (workloadName : String) (poll : PendingHealthPoll) : FProg MigrationController Bool :=
  unjournaled fun self => migration.observeDestinationReachable self workloadName poll

def advanceSinglePendingPoll (workloadName : String) (poll : PendingHealthPoll) :
    FProg MigrationController Unit := do
  let ms ← nowMs
  let now ← nowMs
  let timedOut := decide (now > poll.deployedAtMs + deps.healthTimeoutMs)
  if timedOut && !poll.destinationReachableObserved then cleanupTimedOutDeploy deps workloadName poll.move ms
  else if ← observeDestinationReachable workloadName poll then
    completeMoveBySourceRemoval deps workloadName poll.move ms
  else return

def advanceKey (workloadName : String) : FProg MigrationController Unit := do
  match (← Fallible.get).pendingHealthPolls.get? workloadName with
  | some poll => advanceSinglePendingPoll deps workloadName poll
  | none => return

def advancePendingHealthPolls : FProg MigrationController Unit := do
  if deps.removeWorkload then
    (← Fallible.get).pendingHealthPolls.keys.foldlM (fun _ workloadName => advanceKey deps workloadName) ()
  else return

theorem writeJournalEntry_ensures {good : List FEvent → FEvent → Prop} {pre : List FEvent → S → Prop}
    {post : List FEvent → Unit → S → Prop} {thrown : List FEvent → S → Prop} {entry : FleetJournalEntry}
    (hgood : ∀ past state reply, pre past state → good past ⟨.writeJournalEntry entry, reply⟩)
    (hok : ∀ past state, pre past state → post (past ++ [⟨.writeJournalEntry entry, .ok ()⟩]) () state)
    (hthrow : ∀ past state message, pre past state → thrown (past ++ [⟨.writeJournalEntry entry, .error message⟩]) state) :
    Fallible.Ensures good pre (writeJournalEntry entry) post thrown := by
  refine Fallible.Ensures.attempt hgood (fun past state reply hpre hreturned => ?_)
    (fun past state reply hpre hthrew => ?_)
  · cases reply with
    | error message => cases hreturned
    | ok _ => exact hok past state hpre
  cases reply with
  | ok _ => cases hthrew
  | error message => exact hthrow past state message hpre

end llamactl.fleet.migration.faulty
