import Llamactl.Collections.Heap
import Llamactl.Inference.Contracts

open collections

namespace llamactl.inference

def ATTEMPT_RECORD_RETENTION_MS : Int := INFERENCE_RPC_MAX_DEADLINE_MS + 60000

inductive StopReason where
  | cancel
  | deadline
  | disconnect
  | attachTimeout
  | close
  deriving DecidableEq

structure AttemptOwner where
  key : List Nat
  serviceId : String
  credentialScopeId : String
  held : Int
  active : Int

inductive RunState where
  | accepted
  | started
  | emitting
  deriving DecidableEq

structure AttemptRun where
  deployment : Deployment
  envelope : Envelope
  acceptedAt : Int
  state : RunState
  streamed : Bool
  aborted : Option StopReason

/-- An attempt record and the run it was admitted with. The run object outlives the record's hold
on it: the stream goes on with it after the attempt has settled. -/
structure Attempt where
  attemptId : String
  requestId : String
  cancelId : String
  /-- a place in `HostState.ownerObjects` -/
  owner : Nat
  tenantId : String
  admission : Nat
  deploymentId : String
  retainUntil : Int
  deadline : Int
  terminal : Option Terminal
  terminalSequence : Option Nat
  /-- The record still has its run. -/
  running : Bool
  run : AttemptRun

structure HostOptions where
  workerId : String
  incarnation : String
  backends : List BackendKind
  maxActive : Nat
  maxRecords : Nat
  maxRecordsPerOwner : Nat

/-- A worker RPC host. A record or an owner is a place in the list of all that were ever made, so
the tables and queues refer to it as the source's references do. -/
structure HostState where
  draining : Bool := false
  attempts : List Attempt := []
  ownerObjects : List AttemptOwner := []
  records : OrderedMap String Nat := .empty
  owners : OrderedMap (List Nat) Nat := .empty
  retained : List (Option Nat) := []
  retainedHead : Nat := 0
  awaitingDeadline : List Nat := []
  cancelIds : OrderedMap (List Nat) String := .empty
  admissions : Nat := 0
  active : Int := 0
  streams : Int := 0
  /-- the drains that wait -/
  idle : Nat := 0

inductive AttemptState where
  | unknown
  | accepted
  | started
  | emitting
  | terminal
  deriving DecidableEq

structure AttemptStatus where
  attemptId : String
  state : AttemptState
  requestId : Option String := none
  deploymentId : Option String := none
  terminal : Option Terminal := none
  terminalSequence : Option Nat := none

inductive SubmitResult where
  | accepted (requestId attemptId workerId workerIncarnation deploymentId deploymentEpoch : String) (acceptedAt : Int)
  | existing (status : AttemptStatus)
  | rejected (rejection : Rejection)

/-- What one submit reads outside the host's state: `versions()`, the share of an owner, the catalog
or the error of its build, and the clocks, once for each call to them. -/
structure Reads where
  versions : List RpcVersion
  share : Nat
  catalog : Except String WorkerCatalog
  sweepMonotonic : Int
  sweepWall : Int
  deadlineWall : Int
  acceptedWall : Int
  retainMonotonic : Int

/-- One attempt more, unsettled. -/
def AttemptOwner.hold (owner : AttemptOwner) : AttemptOwner :=
  { owner with held := owner.held + 1, active := owner.active + 1 }

def AttemptOwner.release (owner : AttemptOwner) : AttemptOwner := { owner with active := owner.active - 1 }

/-- One of its settled attempts is forgotten. -/
def AttemptOwner.unhold (owner : AttemptOwner) : AttemptOwner := { owner with held := owner.held - 1 }

def Attempt.settle (record : Attempt) (terminal : Terminal) : Attempt :=
  { record with terminal := some terminal, running := false }

def Attempt.abort (record : Attempt) (reason : StopReason) : Attempt :=
  { record with run := { record.run with aborted := record.run.aborted.or (some reason) } }

def RunState.reported : RunState → AttemptState
  | .accepted => .accepted
  | .started => .started
  | .emitting => .emitting

def statusOf (record : Attempt) : AttemptStatus where
  attemptId := record.attemptId
  state := if record.running then record.run.state.reported else .terminal
  requestId := some record.requestId
  deploymentId := some record.deploymentId
  terminal := record.terminal
  terminalSequence := record.terminalSequence

namespace HostState

variable (state : HostState)

def modifyAttempt (r : Nat) (f : Attempt → Attempt) : HostState := { state with attempts := state.attempts.modify r f }

def notifyIdle : HostState := if 0 < state.active ∨ 0 < state.streams then state else { state with idle := 0 }

/-- The record of an unsettled attempt gets its terminal and drops its run. -/
def release (r o : Nat) (terminal : Terminal) : HostState :=
  { state with
    attempts := state.attempts.modify r (·.settle terminal)
    ownerObjects := state.ownerObjects.modify o AttemptOwner.release
    active := state.active - 1 }

/-- Settles once, and answers with the terminal the record has then. -/
def settle (r : Nat) (terminal : Terminal) : HostState × Terminal :=
  match state.attempts[r]? with
  | none => (state, terminal)
  | some record =>
    match record.terminal with
    | some recorded => (state, recorded)
    | none => ((state.release r record.owner terminal).notifyIdle, terminal)

def forget (r : Nat) : HostState :=
  match state.attempts[r]? with
  | none => state
  | some record =>
    match state.ownerObjects[record.owner]? with
    | none => state
    | some owner =>
      let key := cancelKey owner.key record.tenantId record.cancelId
      { state with
        records := state.records.erase record.attemptId
        cancelIds :=
          if state.cancelIds.get? key = some record.attemptId then state.cancelIds.erase key else state.cancelIds
        ownerObjects := state.ownerObjects.modify record.owner AttemptOwner.unhold
        owners := if owner.held - 1 = 0 then state.owners.erase owner.key else state.owners }

def deadlineOf (r : Nat) : Int := (state.attempts[r]?.map Attempt.deadline).getD 0

/-- The first loop of `sweep`, over what the queue holds from its head on. -/
def sweepRetained (now wall : Int) (state : HostState) : List (Option Nat) → HostState
  | some r :: rest =>
    match state.attempts[r]? with
    | none => state
    | some next =>
      if next.running = false ∧ next.retainUntil ≤ now then
        let taken := { state with
          retained := state.retained.set state.retainedHead none
          retainedHead := state.retainedHead + 1 }
        if next.deadline ≤ wall then sweepRetained now wall (taken.forget r) rest
        else
          sweepRetained now wall { taken with
            awaitingDeadline := push taken.deadlineOf taken.awaitingDeadline r } rest
      else state
  | _ => state

def compactRetained : HostState :=
  if 1024 < state.retainedHead ∧ state.retained.length < state.retainedHead * 2 then
    { state with retained := state.retained.drop state.retainedHead, retainedHead := 0 }
  else state

/-- The second loop of `sweep`; each turn takes one record, so there are at most as many as it is
given. -/
def sweepAwaiting (wall : Int) (state : HostState) : Nat → HostState
  | 0 => state
  | turns + 1 =>
    match state.awaitingDeadline with
    | [] => state
    | r :: _ =>
      if state.deadlineOf r ≤ wall then
        let popped := { state with awaitingDeadline := pop state.deadlineOf state.awaitingDeadline }
        sweepAwaiting wall (popped.forget r) turns
      else state

def sweep (now wall : Int) : HostState :=
  let swept := (sweepRetained now wall state (state.retained.drop state.retainedHead)).compactRetained
  sweepAwaiting wall swept swept.awaitingDeadline.length

end HostState

def executedBy (run : AttemptRun) : Executed := ⟨run.deployment.upstreamModelId, run.deployment.deploymentId⟩

def stopTerminal (run : AttemptRun) (reason : StopReason) : Terminal :=
  let started : Bool := run.state ≠ .accepted
  let executed := if started then some (executedBy run) else none
  match reason with
  | .deadline => .failed started ⟨"timeout", "the attempt deadline passed", false⟩ executed UNKNOWN_USAGE
  | .cancel | .disconnect | .attachTimeout | .close => .cancelled started executed UNKNOWN_USAGE

namespace HostState

variable (options : HostOptions) (state : HostState)

def stopAttempt (r : Nat) (reason : StopReason) : HostState :=
  match state.attempts[r]? with
  | none => state
  | some record =>
    if record.running then
      (state.settle r (stopTerminal record.run reason)).1.modifyAttempt r (·.abort reason)
    else state

def ownedBy (record : Attempt) (claims : Claims) : Bool :=
  match state.ownerObjects[record.owner]? with
  | none => false
  | some owner =>
    owner.serviceId = claims.serviceId && owner.credentialScopeId = claims.credentialScopeId &&
      claims.tenants.contains record.tenantId

def ownedRecord (claims : Claims) (attemptId : String) : Option (Nat × Attempt) :=
  match state.records.get? attemptId with
  | none => none
  | some r =>
    match state.attempts[r]? with
    | none => none
    | some record => if state.ownedBy record claims then some (r, record) else none

def fenceCapacity (share : Nat) (claims : Claims) : Option Rejection :=
  let owner := (state.owners.get? (ownerKey claims.serviceId claims.credentialScopeId)).bind (state.ownerObjects[·]?)
  if (share : Int) ≤ owner.elim 0 AttemptOwner.active then
    some { code := .overloaded, message := "the service is at its active attempt share" }
  else if (options.maxActive : Int) ≤ state.active then
    some { code := .overloaded, message := "the worker is at its attempt limit" }
  else if (options.maxRecordsPerOwner : Int) ≤ owner.elim 0 AttemptOwner.held then
    some { code := .overloaded, message := "the service is at its attempt record quota" }
  else if options.maxRecords ≤ state.records.entries.length then
    some { code := .overloaded, message := "the worker is at its record limit" }
  else none

/-- `isAvailable` and `backendFor` -/
def isAvailable (deployment : Deployment) : Bool :=
  deployment.backendKind ≠ .cloudApi && options.backends.contains deployment.backendKind && deployment.epoch.isSome &&
    !deployment.draining

def fenceExecution (now : Int) (share : Nat) (claims : Claims) (deployment : Deployment) (envelope : Envelope) :
    Option Rejection :=
  fenceDeadline now envelope <|> fenceHops envelope <|>
    (if isAvailable options deployment then none
      else some {
        code := .targetUnavailable
        message := s!"no executable {deployment.backendKind.text} backend for '{deployment.deploymentId}'" }) <|>
    fenceModel deployment envelope <|> fenceFeatures envelope <|> state.fenceCapacity options share claims

def ownerOf (claims : Claims) : HostState × Nat :=
  let key := ownerKey claims.serviceId claims.credentialScopeId
  match state.owners.get? key with
  | some o => (state, o)
  | none =>
    ({ state with
        ownerObjects := state.ownerObjects ++ [⟨key, claims.serviceId, claims.credentialScopeId, 0, 0⟩]
        owners := state.owners.set key state.ownerObjects.length },
      state.ownerObjects.length)

/-- The record `admitAttempt` makes. -/
def newAttempt (owner admission : Nat) (input : SubmitRequest) (deployment : Deployment) (reads : Reads) : Attempt where
  attemptId := input.envelope.attemptId
  requestId := input.envelope.requestId
  cancelId := input.cancelId
  owner := owner
  tenantId := input.envelope.tenantId
  admission := admission
  deploymentId := deployment.deploymentId
  retainUntil := reads.retainMonotonic + ATTEMPT_RECORD_RETENTION_MS
  deadline := input.envelope.deadline
  terminal := none
  terminalSequence := none
  running := true
  run := ⟨deployment, input.envelope, reads.acceptedWall, .accepted, false, none⟩

/-- The deadline and attach timers it sets may fire at any time while the record has its run. -/
def admitAttempt (claims : Claims) (input : SubmitRequest) (deployment : Deployment) (reads : Reads) : HostState :=
  let (owned, o) := state.ownerOf claims
  let record := newAttempt o (owned.admissions + 1) input deployment reads
  let r := owned.attempts.length
  let key := cancelKey (ownerKey claims.serviceId claims.credentialScopeId) record.tenantId record.cancelId
  { owned with
    admissions := owned.admissions + 1
    attempts := owned.attempts ++ [record]
    ownerObjects := owned.ownerObjects.modify o AttemptOwner.hold
    records := owned.records.set record.attemptId r
    retained := owned.retained ++ [some r]
    cancelIds := owned.cancelIds.set key record.attemptId
    active := owned.active + 1 }

def advertised (versions : List RpcVersion) : List RpcVersion := if state.draining then [] else versions

/-- `submit` after the sweep and the look for a record of its own, which is `existing`. -/
def submitNew (claims : Option Claims) (input : SubmitRequest) (reads : Reads) (existing : Bool) :
    HostState × Except String SubmitResult :=
  let refused := fun rejection => (state, Except.ok (SubmitResult.rejected rejection))
  if input.version ∉ state.advertised reads.versions then
    refused {
      code := .unsupportedVersion
      message := "the submit version was not negotiated here"
      supportedVersions := some (state.advertised reads.versions) }
  else
    match claims with
    | none => refused NO_SCOPE
    | some claims =>
      match reads.catalog with
      | .error error => (state, .error error)
      | .ok catalog =>
        let target := catalog.all.find? fun d => d.deploymentId = input.target.deploymentId
        match fenceClaims claims input target with
        | some rejection => refused rejection
        | none =>
          if existing then refused NO_SCOPE
          else
            match fenceOwnership options.workerId options.incarnation catalog input.target with
            | .error rejection => refused rejection
            | .ok deployment =>
              match state.fenceExecution options reads.deadlineWall reads.share claims deployment input.envelope with
              | some rejection => refused rejection
              | none =>
                (state.admitAttempt claims input deployment reads,
                  .ok (.accepted input.envelope.requestId input.envelope.attemptId options.workerId options.incarnation
                    deployment.deploymentId input.target.expectedDeploymentEpoch reads.acceptedWall))

def submit (claimsIn : Option Claims) (input : SubmitRequest) (reads : Reads) : HostState × Except String SubmitResult :=
  let claims := authorized claimsIn .submit
  let swept := state.sweep reads.sweepMonotonic reads.sweepWall
  match claims.bind fun c => swept.ownedRecord c input.envelope.attemptId with
  | some (_, record) => (swept, .ok (.existing (statusOf record)))
  | none => swept.submitNew options claims input reads (swept.records.has input.envelope.attemptId)

/-- What an accepted submit has passed, in the state the sweep leaves. -/
structure Admits (swept : HostState) (claimsIn : Option Claims) (input : SubmitRequest) (reads : Reads)
    (claims : Claims) : Prop where
  authorized : authorized claimsIn .submit = some claims
  fresh : swept.records.get? input.envelope.attemptId = none
  deadline : fenceDeadline reads.deadlineWall input.envelope = none
  capacity : swept.fenceCapacity options reads.share claims = none

theorem submitNew_cases (claims : Option Claims) (input : SubmitRequest) (reads : Reads) (existing : Bool) :
    ((state.submitNew options claims input reads existing).1 = state ∧
      ∀ a b c d e f t, (state.submitNew options claims input reads existing).2 ≠ .ok (.accepted a b c d e f t)) ∨
    ∃ c deployment, claims = some c ∧ existing = false ∧ fenceDeadline reads.deadlineWall input.envelope = none ∧
      state.fenceCapacity options reads.share c = none ∧
      (state.submitNew options claims input reads existing).1 = state.admitAttempt c input deployment reads := by
  unfold submitNew
  simp only
  split
  · exact .inl ⟨rfl, by simp⟩
  cases claims with
  | none => exact .inl ⟨rfl, by simp⟩
  | some claims =>
    simp only
    split
    · exact .inl ⟨rfl, by simp⟩
    split
    · exact .inl ⟨rfl, by simp⟩
    cases existing with
    | true => exact .inl ⟨rfl, by simp⟩
    | false =>
      simp only [Bool.false_eq_true, if_false]
      split
      · exact .inl ⟨rfl, by simp⟩
      next deployment _ =>
        split
        · exact .inl ⟨rfl, by simp⟩
        next hexecution =>
          simp only [fenceExecution, Option.orElse_eq_none] at hexecution
          obtain ⟨hdeadline, -, -, -, -, hcapacity⟩ := hexecution
          exact .inr ⟨claims, deployment, rfl, trivial, hdeadline, hcapacity, rfl⟩

theorem submit_cases (claimsIn : Option Claims) (input : SubmitRequest) (reads : Reads) :
    ((state.submit options claimsIn input reads).1 = state.sweep reads.sweepMonotonic reads.sweepWall ∧
      ∀ a b c d e f t, (state.submit options claimsIn input reads).2 ≠ .ok (.accepted a b c d e f t)) ∨
    ∃ claims deployment,
      Admits options (state.sweep reads.sweepMonotonic reads.sweepWall) claimsIn input reads claims ∧
      (state.submit options claimsIn input reads).1 =
        (state.sweep reads.sweepMonotonic reads.sweepWall).admitAttempt claims input deployment reads := by
  unfold submit
  simp only
  split
  · exact .inl ⟨rfl, by simp⟩
  rcases submitNew_cases options (state.sweep reads.sweepMonotonic reads.sweepWall) (authorized claimsIn .submit) input
    reads ((state.sweep reads.sweepMonotonic reads.sweepWall).records.has input.envelope.attemptId)
    with h | ⟨claims, deployment, hclaims, hexisting, hdeadline, hcapacity, heq⟩
  · exact .inl h
  · exact .inr ⟨claims, deployment, ⟨hclaims, by simpa [OrderedMap.has] using hexisting, hdeadline, hcapacity⟩, heq⟩

inductive StatusResult where
  | status (status : AttemptStatus)
  | rejected (rejection : Rejection)

def statusFor (claims : Claims) (attemptId : String) : AttemptStatus :=
  match state.ownedRecord claims attemptId with
  | none => { attemptId, state := .unknown }
  | some (_, record) => statusOf record

def attemptStatus (claimsIn : Option Claims) (attemptId : String) : StatusResult :=
  match authorized claimsIn .status with
  | none => .rejected NO_SCOPE
  | some claims => .status (state.statusFor claims attemptId)

inductive CancelRequest where
  | attemptId (attemptId : String)
  | cancelId (cancelId : String)

inductive CancelResult where
  | cancelled (attemptId : String)
  | alreadyTerminal (attemptId : String)
  | unknown
  | rejected (rejection : Rejection)

def cancelTarget (claims : Claims) (cancelId : String) : Option (Nat × Attempt) :=
  claims.tenants.foldl (fun latest tenantId =>
    let key := cancelKey (ownerKey claims.serviceId claims.credentialScopeId) tenantId cancelId
    match (state.cancelIds.get? key).bind (state.ownedRecord claims) with
    | none => latest
    | some (r, record) =>
      match latest with
      | none => some (r, record)
      | some (_, other) => if other.admission < record.admission then some (r, record) else latest) none

def cancelAttempt (claimsIn : Option Claims) (input : CancelRequest) : HostState × CancelResult :=
  match authorized claimsIn .cancel with
  | none => (state, .rejected NO_SCOPE)
  | some claims =>
    let target := match input with
      | .attemptId attemptId => state.ownedRecord claims attemptId
      | .cancelId cancelId => state.cancelTarget claims cancelId
    match target with
    | none => (state, .unknown)
    | some (r, record) =>
      if record.terminal.isSome then (state, .alreadyTerminal record.attemptId)
      else (state.stopAttempt r .cancel, .cancelled record.attemptId)

def drain : HostState := { state with draining := true, idle := state.idle + 1 }.notifyIdle

/-- `close`; a record that has settled is passed over by `stopAttempt`. -/
def closeAll : HostState := state.records.values.foldl (fun s r => s.stopAttempt r .close) state

def attachTimeout (r : Nat) : HostState :=
  match state.attempts[r]? with
  | none => state
  | some record => if record.run.streamed then state else state.stopAttempt r .attachTimeout

end HostState

end llamactl.inference
