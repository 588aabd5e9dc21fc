import Llamactl.Js.Text
import Mathlib.Data.List.Induction

open js Option

namespace llamactl.server.agentUpdate

/-! `agent-update.ts`: the agent replaces its own binary, and swaps it with the one before. -/

/-- The files next to the running binary: itself, `.previous`, the staging file and `.swap`. -/
structure Files where
  self : Option (List Nat)
  previous : Option (List Nat)
  staging : Option (List Nat)
  swap : Option (List Nat)
  deriving DecidableEq

inductive Path where
  | self
  | previous
  | staging
  | swap
  deriving DecidableEq

@[simp] def Files.get (files : Files) : Path → Option (List Nat)
  | .self => files.self
  | .previous => files.previous
  | .staging => files.staging
  | .swap => files.swap

@[simp] def Files.put (files : Files) (path : Path) (content : Option (List Nat)) : Files :=
  match path with
  | .self => { files with self := content }
  | .previous => { files with previous := content }
  | .staging => { files with staging := content }
  | .swap => { files with swap := content }

inductive FileOp where
  /-- `readFileSync` or `statSync` -/
  | read (path : Path)
  | writeFile (path : Path) (content : List Nat)
  | chmod (path : Path)
  | copyFile (source target : Path)
  | rename (source target : Path)
  deriving DecidableEq

/-- Where a request is interrupted: at the operation of that position, before it or, for a write or a copy, after so many
bytes of it; by an error that is thrown or by a crash of the process. The position after the last operation is a crash
before the response. -/
structure Fault where
  position : Nat
  crash : Bool
  written : Option Nat
  message : String
  deriving DecidableEq

/-- One file operation; `none` where a file is missing. -/
@[simp] def FileOp.run (op : FileOp) (files : Files) : Option Files :=
  match op with
  | .read path => if (files.get path).isSome then some files else none
  | .writeFile path content => some (files.put path (some content))
  | .chmod path => if (files.get path).isSome then some files else none
  | .copyFile source target => (files.get source).map fun content => files.put target (some content)
  | .rename source target => (files.get source).map fun content => (files.put source none).put target (some content)

/-- What an interrupted operation leaves: a rename is made or not, a write or a copy may end early. -/
@[simp] def FileOp.interrupted (op : FileOp) (written : Option Nat) (files : Files) : Files :=
  match op, written with
  | .writeFile path content, some count => files.put path (some (content.take count))
  | .copyFile source target, some count =>
    match files.get source with
    | some content => files.put target (some (content.take count))
    | none => files
  | _, _ => files

inductive Outcome where
  | done
  | threw (message : String)
  | crashed
  deriving DecidableEq

/-- Operations one after the other, from the position of the first. -/
def runOps (fault : Option Fault) : Nat → List FileOp → Files → Files × Outcome
  | _, [], files => (files, .done)
  | position, op :: ops, files =>
    match fault with
    | some hit =>
      if hit.position = position then
        (op.interrupted hit.written files, if hit.crash then .crashed else .threw hit.message)
      else
        match op.run files with
        | some next => runOps fault (position + 1) ops next
        | none => (files, .threw "ENOENT")
    | none =>
      match op.run files with
      | some next => runOps fault (position + 1) ops next
      | none => (files, .threw "ENOENT")

inductive Reply where
  | ok
  | error (status : Nat) (message : String)
  /-- the process is gone -/
  | crashed
  deriving DecidableEq

structure Request where
  method : String
  /-- what `verifyBearer` says of its token -/
  authorized : Bool
  sha256 : Option String
  body : List Nat
  deriving DecidableEq

/-- `/^[0-9a-f]{64}$/` -/
def isSha256 (text : String) : Bool :=
  text.length = 64 && text.toList.all fun c => ('0' ≤ c && c ≤ '9') || ('a' ≤ c && c ≤ 'f')

/-- The header in the form that is compared. -/
def expectedSha (req : Request) : Option String :=
  (req.sha256.map fun header => (trim header).toLower).filter isSha256

section

variable (sha256 : List Nat → String) (selfPath : String)

/-- The upload is accepted: an authorised request whose body has the hash it names. -/
def Request.accepted (req : Request) : Bool :=
  req.method = "POST" && req.authorized && !req.body.isEmpty && expectedSha req = some (sha256 req.body)

/-- The reads before a swap and the swap itself; what the reads throw is answered by the server. -/
def swapFiles (label : String) (reads swap : List FileOp) (fault : Option Fault) (files : Files) : Files × Reply :=
  match runOps fault 0 reads files with
  | (read, .threw message) => (read, .error 500 message)
  | (read, .crashed) => (read, .crashed)
  | (read, .done) =>
    match runOps fault reads.length swap read with
    | (next, .done) =>
      let late := fault.any fun fault => fault.crash && fault.position = reads.length + swap.length
      (next, if late then .crashed else .ok)
    | (next, .threw message) => (next, .error 500 s!"{label}: {message}")
    | (next, .crashed) => (next, .crashed)

def updateReads : List FileOp := [.read .self, .read .self]

def updateOps (body : List Nat) : List FileOp :=
  [.writeFile .staging body, .chmod .staging, .copyFile .self .previous, .rename .staging .self]

def handleAgentUpdate (req : Request) (fault : Option Fault) (files : Files) : Files × Reply :=
  if req.method ≠ "POST" then (files, .error 405 "method not allowed")
  else if !req.authorized then (files, .error 401 "unauthorized")
  else
    match expectedSha req with
    | none => (files, .error 400 "missing-or-invalid-x-sha256-header")
    | some expected =>
      if req.body.isEmpty then (files, .error 400 "empty-body")
      else if sha256 req.body ≠ expected then
        (files, .error 400 s!"sha256-mismatch (expected {expected}, got {sha256 req.body})")
      else if files.self.isNone then (files, .error 500 s!"selfPath does not exist: {selfPath}")
      else swapFiles "swap-failed" updateReads (updateOps req.body) fault files

def rollbackReads : List FileOp := [.read .self, .read .previous]

def rollbackOps : List FileOp :=
  [.rename .self .swap, .rename .previous .self, .rename .swap .previous, .chmod .self]

def handleAgentRollback (req : Request) (fault : Option Fault) (files : Files) : Files × Reply :=
  if req.method ≠ "POST" then (files, .error 405 "method not allowed")
  else if !req.authorized then (files, .error 401 "unauthorized")
  else if files.self.isNone then (files, .error 500 s!"selfPath does not exist: {selfPath}")
  else if files.previous.isNone then
    (files, .error 409 s!"no previous binary at {selfPath}.previous — nothing to roll back to")
  else swapFiles "rollback-failed" rollbackReads rollbackOps fault files

/-- The last part of `runWatchdog`, which the agent that did not come back leaves to it. -/
def restorePrevious (fault : Option Fault) (files : Files) : Files := (runOps fault 0 [.copyFile .previous .self] files).1

end

/-- The agent's node: its files and, for the account, the binaries that were accepted for upload. -/
structure Node where
  files : Files
  uploaded : List (List Nat)
  deriving DecidableEq

inductive Action where
  | update (req : Request) (fault : Option Fault)
  | rollback (req : Request) (fault : Option Fault)
  | watchdog (fault : Option Fault)
  deriving DecidableEq

section

variable (sha256 : List Nat → String) (selfPath : String)

def Node.act (node : Node) : Action → Node × Reply
  | .update req fault =>
    let (files, reply) := handleAgentUpdate sha256 selfPath req fault node.files
    (⟨files, if req.accepted sha256 then node.uploaded ++ [req.body] else node.uploaded⟩, reply)
  | .rollback req fault =>
    let (files, reply) := handleAgentRollback selfPath req fault node.files
    (⟨files, node.uploaded⟩, reply)
  | .watchdog fault => (⟨restorePrevious fault node.files, node.uploaded⟩, .ok)

def Node.after (node : Node) (actions : List Action) : Node :=
  actions.foldl (fun node action => (node.act sha256 selfPath action).1) node

end

/-- A binary that was at one of the two paths at the start, or was uploaded since. -/
def Known (start node : Node) (content : List Nat) : Prop :=
  start.files.self = some content ∨ start.files.previous = some content ∨ content ∈ node.uploaded

/-- The agent's own path holds a known binary. -/
def Installed (start node : Node) : Prop := ∃ content, node.files.self = some content ∧ Known start node content

/-- `.previous` is missing or holds a known binary. -/
def PreviousWhole (start node : Node) : Prop := ∀ content, node.files.previous = some content → Known start node content

/-- An interruption that a rollback survives: before its first rename, or a crash after its second. -/
def Fault.sparesRollback (fault : Fault) : Bool := fault.position ≤ 2 || (fault.crash && 4 ≤ fault.position)

/-- A rollback or a restore from a binary that is whole, which is not interrupted where the own path is at stake. -/
def Spared (start node : Node) : Action → Prop
  | .update _ _ => True
  | .rollback _ fault => PreviousWhole start node ∧ fault.all Fault.sparesRollback = true
  | .watchdog fault => PreviousWhole start node ∧ fault.all (fun fault => fault.position ≠ 0 || fault.written.isNone) = true

/-- What is claimed of one action: the own path holds a known binary after it, and an error changed nothing there. -/
structure Kept (sha256 : List Nat → String) (selfPath : String) (start node : Node) (action : Action) : Prop where
  installed : Installed start (node.act sha256 selfPath action).1
  unchanged : ∀ status message, (node.act sha256 selfPath action).2 = .error status message →
    (node.act sha256 selfPath action).1.files.self = node.files.self

section

variable {files : Files} {fault : Option Fault} {binary other body : List Nat}

/-- An update touches the own path by its last operation only. -/
theorem swapFiles_update (label : String) (hself : files.self = some binary) :
    (swapFiles label updateReads (updateOps body) fault files).1.self = files.self ∨
      (swapFiles label updateReads (updateOps body) fault files).1.self = some body ∧
        ∀ status message, (swapFiles label updateReads (updateOps body) fault files).2 ≠ .error status message := by
  cases fault with
  | none =>
    right
    simp [swapFiles, updateReads, updateOps, runOps, hself]
  | some hit =>
    obtain ⟨position, crash, written, message⟩ := hit
    rcases position with _ | _ | _ | _ | _ | _ | position
    -- interrupted at a read, at an operation on the other files, or at the rename
    iterate 6
      left
      cases crash <;> cases written <;> simp [swapFiles, updateReads, updateOps, runOps, hself]
    · right
      simp [swapFiles, updateReads, updateOps, runOps, hself]
      split <;> simp

def swapped (files : Files) : Files := ⟨files.previous, files.self, files.staging, none⟩

theorem swapFiles_rollback_ok (label : String) (hself : files.self = some binary) (hprevious : files.previous = some other)
    (hok : (swapFiles label rollbackReads rollbackOps fault files).2 = .ok) :
    (swapFiles label rollbackReads rollbackOps fault files).1 = swapped files := by
  cases fault with
  | none => simp [swapFiles, rollbackReads, rollbackOps, runOps, swapped, hself, hprevious]
  | some hit =>
    obtain ⟨position, crash, written, message⟩ := hit
    rcases position with _ | _ | _ | _ | _ | _ | position
    iterate 6
      cases crash <;> simp [swapFiles, rollbackReads, rollbackOps, runOps, hself, hprevious] at hok
    · simp [swapFiles, rollbackReads, rollbackOps, runOps, swapped, hself, hprevious]

theorem swapFiles_rollback_spared (label : String) (hself : files.self = some binary)
    (hprevious : files.previous = some other) (hspared : fault.all Fault.sparesRollback = true) :
    (swapFiles label rollbackReads rollbackOps fault files).1.self = some binary ∨
      (swapFiles label rollbackReads rollbackOps fault files).1.self = some other ∧
        ∀ status message, (swapFiles label rollbackReads rollbackOps fault files).2 ≠ .error status message := by
  cases fault with
  | none =>
    right
    simp [swapFiles, rollbackReads, rollbackOps, runOps, hself, hprevious]
  | some hit =>
    obtain ⟨position, crash, written, message⟩ := hit
    rcases position with _ | _ | _ | _ | _ | _ | position
    -- before the first rename is made
    iterate 3
      left
      cases crash <;> simp [swapFiles, rollbackReads, rollbackOps, runOps, hself, hprevious]
    · simp [Fault.sparesRollback] at hspared
    -- after the second rename
    iterate 2
      right
      obtain rfl : crash = true := by simpa [Fault.sparesRollback] using hspared
      simp [swapFiles, rollbackReads, rollbackOps, runOps, hself, hprevious]
    · right
      simp [swapFiles, rollbackReads, rollbackOps, runOps, hself, hprevious]
      split <;> simp

end

section

variable {sha256 : List Nat → String} {selfPath : String} {start node : Node} {action : Action}

theorem handleAgentUpdate_spec (req : Request) (fault : Option Fault) {files : Files} {binary : List Nat}
    (hself : files.self = some binary) :
    (handleAgentUpdate sha256 selfPath req fault files).1.self = files.self ∨
      (handleAgentUpdate sha256 selfPath req fault files).1.self = some req.body ∧ req.accepted sha256 = true ∧
        ∀ status message, (handleAgentUpdate sha256 selfPath req fault files).2 ≠ .error status message := by
  unfold handleAgentUpdate
  split
  · exact .inl rfl
  next hmethod =>
    split
    · exact .inl rfl
    next hauthorized =>
      split
      · exact .inl rfl
      next expected hexpected =>
        split
        · exact .inl rfl
        next hbody =>
          split
          · exact .inl rfl
          next hsha =>
            split
            · exact .inl rfl
            obtain hkept | ⟨hnew, hreply⟩ := swapFiles_update "swap-failed" hself
            · exact .inl hkept
            · refine .inr ⟨hnew, ?_, hreply⟩
              simp_all [Request.accepted]

theorem handleAgentRollback_spec (req : Request) {fault : Option Fault} {files : Files} {binary : List Nat}
    (hself : files.self = some binary) (hspared : fault.all Fault.sparesRollback = true) :
    (handleAgentRollback selfPath req fault files).1.self = files.self ∨
      (handleAgentRollback selfPath req fault files).1.self = files.previous ∧ files.previous.isSome = true ∧
        ∀ status message, (handleAgentRollback selfPath req fault files).2 ≠ .error status message := by
  unfold handleAgentRollback
  split
  · exact .inl rfl
  split
  · exact .inl rfl
  split
  · exact .inl rfl
  cases hprevious : files.previous with
  | none => exact .inl rfl
  | some other =>
    obtain hkept | ⟨hother, hreply⟩ := swapFiles_rollback_spared "rollback-failed" hself hprevious hspared
    · exact .inl (hkept.trans hself.symm)
    · exact .inr ⟨hother, rfl, hreply⟩

theorem restorePrevious_spec {fault : Option Fault} {files : Files}
    (hspared : fault.all (fun fault => fault.position ≠ 0 || fault.written.isNone) = true) :
    (restorePrevious fault files).self = files.self ∨
      (restorePrevious fault files).self = files.previous ∧ files.previous.isSome = true := by
  unfold restorePrevious
  cases hprevious : files.previous with
  | none =>
    left
    cases fault with
    | none => simp [runOps, hprevious]
    | some hit =>
      obtain ⟨position, crash, written, message⟩ := hit
      cases position <;> cases written <;> simp [runOps, hprevious]
  | some other =>
    cases fault with
    | none =>
      right
      simp [runOps, hprevious]
    | some hit =>
      obtain ⟨position, crash, written, message⟩ := hit
      cases position with
      | zero =>
        left
        obtain rfl : written = none := by simpa using hspared
        simp [runOps]
      | succ position =>
        right
        simp [runOps, hprevious]

theorem Known.mono {next : Node} {content : List Nat} (h : Known start node content)
    (huploaded : ∀ binary ∈ node.uploaded, binary ∈ next.uploaded) : Known start next content := by
  obtain hself | hprevious | hmem := h
  · exact .inl hself
  · exact .inr (.inl hprevious)
  · exact .inr (.inr (huploaded content hmem))

theorem act_kept (hinstalled : Installed start node) (hspared : Spared start node action) :
    Kept sha256 selfPath start node action := by
  obtain ⟨binary, hself, hknown⟩ := hinstalled
  cases action with
  | update req fault =>
    have hmore : ∀ content ∈ node.uploaded, content ∈ (node.act sha256 selfPath (.update req fault)).1.uploaded := by
      intro content hmem
      unfold Node.act
      dsimp only
      split
      · exact List.mem_append_left _ hmem
      · exact hmem
    obtain hkept | ⟨hnew, haccepted, hreply⟩ := @handleAgentUpdate_spec sha256 selfPath req fault node.files binary hself
    · exact ⟨⟨binary, hkept.trans hself, hknown.mono hmore⟩, fun _ _ _ => hkept⟩
    · refine ⟨⟨req.body, hnew, .inr (.inr ?_)⟩, fun status message herror => absurd herror (hreply status message)⟩
      simp [Node.act, haccepted]
  | rollback req fault =>
    obtain ⟨hwhole, hfault⟩ := hspared
    obtain hkept | ⟨hother, hsome, hreply⟩ := @handleAgentRollback_spec selfPath req fault node.files binary hself hfault
    · exact ⟨⟨binary, hkept.trans hself, hknown⟩, fun _ _ _ => hkept⟩
    obtain ⟨other, hprevious⟩ := isSome_iff_exists.mp hsome
    exact ⟨⟨other, hother.trans hprevious, hwhole other hprevious⟩,
      fun status message herror => absurd herror (hreply status message)⟩
  | watchdog fault =>
    obtain ⟨hwhole, hfault⟩ := hspared
    have hinstalled : Installed start (node.act sha256 selfPath (.watchdog fault)).1 := by
      obtain hkept | ⟨hother, hsome⟩ := @restorePrevious_spec fault node.files hfault
      · exact ⟨binary, hkept.trans hself, hknown⟩
      · obtain ⟨other, hprevious⟩ := isSome_iff_exists.mp hsome
        exact ⟨other, hother.trans hprevious, hwhole other hprevious⟩
    refine ⟨hinstalled, ?_⟩
    intro status message herror
    cases herror

theorem after_append (node : Node) (actions : List Action) (action : Action) :
    node.after sha256 selfPath (actions ++ [action]) = ((node.after sha256 selfPath actions).act sha256 selfPath action).1 := by
  simp [Node.after]

theorem handleAgentRollback_ok {req : Request} {fault : Option Fault} {files : Files}
    (hok : (handleAgentRollback selfPath req fault files).2 = .ok) :
    (handleAgentRollback selfPath req fault files).1 = swapped files := by
  unfold handleAgentRollback at hok ⊢
  split at hok
  · cases hok
  next hmethod =>
    split at hok
    · cases hok
    next hauthorized =>
      split at hok
      · cases hok
      next hself =>
        split at hok
        · cases hok
        next hprevious =>
          obtain ⟨binary, hbinary⟩ := ne_none_iff_exists'.mp (by simpa using hself)
          obtain ⟨other, hother⟩ := ne_none_iff_exists'.mp (by simpa using hprevious)
          rw [if_neg hmethod, if_neg hauthorized, if_neg hself, if_neg hprevious]
          exact swapFiles_rollback_ok _ hbinary hother hok

end

/-- The node of an agent that is installed, with whatever else lies next to it. -/
def Node.installed (binary : List Nat) (previous staging swap : Option (List Nat)) : Node :=
  ⟨⟨some binary, previous, staging, swap⟩, []⟩

/-- Over every run of updates, rollbacks and restores that are interrupted at worst where the own path is not at stake,
the agent keeps a binary it had or was sent, and an error leaves it in place; two rollbacks undo each other. -/
theorem agent_binary_kept (sha256 : List Nat → String) (selfPath : String) (binary : List Nat)
    (previous staging swap : Option (List Nat)) (actions : List Action)
    (hspared : ∀ before action after, actions = before ++ action :: after →
      Spared (.installed binary previous staging swap)
        ((Node.installed binary previous staging swap).after sha256 selfPath before) action) :
    (∀ before action after, actions = before ++ action :: after →
      Kept sha256 selfPath (.installed binary previous staging swap)
        ((Node.installed binary previous staging swap).after sha256 selfPath before) action) ∧
    ∀ (files : Files) (first second : Request) (fault later : Option Fault),
      (handleAgentRollback selfPath first fault files).2 = .ok →
      (handleAgentRollback selfPath second later (handleAgentRollback selfPath first fault files).1).2 = .ok →
      (handleAgentRollback selfPath second later (handleAgentRollback selfPath first fault files).1).1.self = files.self ∧
      (handleAgentRollback selfPath second later (handleAgentRollback selfPath first fault files).1).1.previous =
        files.previous := by
  constructor
  · intro before action after hsplit
    have hinstalled : Installed (.installed binary previous staging swap)
        ((Node.installed binary previous staging swap).after sha256 selfPath before) := by
      induction before using List.reverseRecOn generalizing action after with
      | nil => exact ⟨binary, rfl, .inl rfl⟩
      | append_singleton before last ih =>
        have hsplit' : actions = before ++ last :: (action :: after) := by simp [hsplit]
        rw [after_append]
        exact (act_kept (ih last _ hsplit') (hspared before last _ hsplit')).installed
    exact act_kept hinstalled (hspared before action after hsplit)
  intro files first second fault later hfirst hsecond
  rw [handleAgentRollback_ok hsecond, handleAgentRollback_ok hfirst]
  exact ⟨rfl, rfl⟩

section

def rollbackRequest : Request := ⟨"POST", true, none, []⟩

/-- A rollback that crashes after its second rename. -/
def lateCrash : Option Fault := some ⟨4, true, none, ""⟩

theorem agent_binary_kept_crash :
    Kept (fun _ => "") "agent" (.installed [1] (some [2]) none none) (.installed [1] (some [2]) none none)
        (.rollback rollbackRequest lateCrash) ∧
      ((Node.installed [1] (some [2]) none none).act (fun _ => "") "agent" (.rollback rollbackRequest lateCrash)).1.files.self =
        some [2] := by
  have hkept := (agent_binary_kept (fun _ => "") "agent" [1] (some [2]) none none [.rollback rollbackRequest lateCrash] (by
    intro before action after hsplit
    obtain ⟨rfl, rfl, -⟩ : before = [] ∧ action = .rollback rollbackRequest lateCrash ∧ after = [] := by
      cases before with
      | nil =>
        obtain ⟨rfl, rfl⟩ := List.cons.inj hsplit
        exact ⟨rfl, rfl, rfl⟩
      | cons first before => simp at hsplit
    refine ⟨?_, by decide⟩
    intro content hcontent
    exact .inr (.inl hcontent))).1 [] _ [] rfl
  exact ⟨hkept, by decide⟩

/-- A rollback whose second rename fails answers with an error and leaves no binary to respawn. -/
theorem rollback_loses_binary :
    ¬∀ (sha256 : List Nat → String) (selfPath : String) (binary : List Nat) (previous staging swap : Option (List Nat))
      (actions before : List Action) (action : Action) (after : List Action), actions = before ++ action :: after →
      Kept sha256 selfPath (.installed binary previous staging swap)
        ((Node.installed binary previous staging swap).after sha256 selfPath before) action := by
  intro hclaim
  obtain ⟨⟨content, hself, -⟩, -⟩ := hclaim (fun _ => "") "agent" [1] (some [2]) none none
    [.rollback rollbackRequest (some ⟨3, false, none, "EIO"⟩)] [] _ [] rfl
  have hnone : ((Node.installed [1] (some [2]) none none).act (fun _ => "") "agent"
      (.rollback rollbackRequest (some ⟨3, false, none, "EIO"⟩))).1.files.self = none := by decide
  cases hnone.symm.trans hself

end

end llamactl.server.agentUpdate
