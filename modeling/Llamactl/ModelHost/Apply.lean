import Llamactl.ModelHost.Agent

open effect effect.Task

namespace llamactl.modelhost

open workload

structure AppliedHost where
  manifest : ModelHostManifest
  pid : Option Int
  endpoint : String

/-- `formatHostForUrl`: an address with a colon goes in brackets. -/
def formatHostForUrl (host : String) : String :=
  if ':' ∈ host.toList then s!"[{host}]" else host

def endpointUrl (spec : ModelHostSpec) : String :=
  s!"http://{formatHostForUrl spec.endpoint.host}:{spec.endpoint.port}"

def stopRefusal (manifest : ModelHostManifest) (answer : Except Thrown (Option String)) :
    Pass (Except Thrown (Option String)) :=
  if manifest.spec.node = localNodeId then do
    let refused ← stopModelHost manifest.name
    return answer.map fun _ => refused
  else return answer

def disableModelHost (manifest : ModelHostManifest) : Pass (Except String AppliedHost) := do
  let answer ← wait (.modelHostStop manifest)
  match ← stopRefusal manifest answer with
  | .error thrown => return .error s!"modelHostStop failed: {thrown.message}"
  | .ok (some reason) => return .error s!"modelHostStop refused: {reason}"
  | .ok none =>
    updateFiles manifest.name removeModelHostState
    return .ok { manifest, pid := none, endpoint := endpointUrl manifest.spec }

def startAnswer (validateSpec : ModelHostSpec → Option String) (manifest : ModelHostManifest)
    (answer : StartAnswer) : Pass (Option StartResult) :=
  if manifest.spec.node = localNodeId then do
    match ← startModelHost validateSpec manifest answer.aborted with
    | .error message => return some (.error message)
    | .ok pid => return some (.ok (some (pid : ℕ), none))
  else return answer.remote

/-- What a start has come to once its stream ends: the pid to record, if there is one, or
the error. An answer without its state is completed by a status query. -/
def startModelHostProcess (validateSpec : ModelHostSpec → Option String) (manifest : ModelHostManifest) :
    Pass (Except Thrown (Except String (Option Int))) := do
  let answer ← wait (.modelHostStart manifest)
  let result ← startAnswer validateSpec manifest answer
  match answer.transport with
  | some message => return .ok (.error message)
  | none =>
    match result with
    | none => return .ok (.error "modelHostStart failed")
    | some (.error message) => return .ok (.error message)
    | some (.ok (some pid, some _)) => return .ok (.ok (some pid))
    | some (.ok _) =>
      match ← modelHostStatus manifest.spec.node manifest.name with
      | .error thrown => return .error thrown
      | .ok status => return .ok (.ok status.pid)

def writeModelHostSidecar (manifest : ModelHostManifest) (pid : Option Int) : Pass Unit := do
  let startedAt ← wait (.clock manifest.name)
  match pid with
  | none => return ()
  | some pid =>
    if manifest.spec.node = localNodeId ∧ 0 < pid then
      updateFiles manifest.name fun files =>
        let slotSavePath := ((readModelHostState files).filter (·.pid = pid)).bind (·.slotSavePath)
        writeModelHostState (launchRecord manifest.spec pid startedAt slotSavePath) files

def applyModelHostManifest (validateSpec : ModelHostSpec → Option String) (manifest : ModelHostManifest) :
    Pass (Except Thrown (Except String AppliedHost)) := do
  match if manifest.spec.node = localNodeId then validateSpec manifest.spec else none with
  | some error => return .ok (.error error)
  | none =>
    if manifest.spec.enabled then
      match modelHostBindRefusal manifest with
      | some refusal => return .ok (.error refusal)
      | none =>
        match ← wait (.admitBudget manifest) with
        | .error thrown => return .error thrown
        | .ok (some rejected) => return .ok (.error rejected)
        | .ok none =>
          match ← startModelHostProcess validateSpec manifest with
          | .error thrown => return .error thrown
          | .ok (.error error) => return .ok (.error error)
          | .ok (.ok pid) =>
            writeModelHostSidecar manifest pid
            return .ok (.ok { manifest, pid, endpoint := endpointUrl manifest.spec })
    else return .ok (← disableModelHost manifest)

def RecordOf (spec : ModelHostSpec) (files : HostFiles) : Prop :=
  ∃ pid startedAt slotSavePath, 0 < pid ∧ files.state = some (launchRecord spec pid startedAt slotSavePath)

/-- What an apply that reached its start did to the files of a local host. -/
structure StartFacts (manifest : ModelHostManifest) (before after : Own) : Prop where
  state : (after.files manifest.name).state = (before.files manifest.name).state ∨
    RecordOf manifest.spec (after.files manifest.name)
  attempt : (after.files manifest.name).startAttempt = (before.files manifest.name).startAttempt

theorem AgentFacts.startFacts {manifest : ModelHostManifest} {before after : Own} {result : AgentResult}
    (h : AgentFacts manifest before after result) : StartFacts manifest before after := by
  refine ⟨?_, h.attempt⟩
  cases result with
  | error message => exact .inl (h.failed message rfl)
  | ok pid =>
    obtain ⟨startedAt, slotSavePath, hstate⟩ := h.launched pid rfl
    exact .inr ⟨_, startedAt, slotSavePath, by exact_mod_cast pid.pos, hstate⟩

def startedCall (name : String) (call : Call) : Prop :=
  agentCall name call ∨ call = .localStatus name ∨ ∃ node, call = .remoteStatus node name

section

variable {good : List PassWait → PassWait → Prop} {inv : List PassWait → WorkloadsDir → Prop}
  {past : List PassWait} {dir : WorkloadsDir} {own : Own} {manifest : ModelHostManifest}

theorem modelHostStatus_holds (hsteady : Steady good inv (startedCall manifest.name)) (hinv : inv past dir)
    (node : String) :
    (modelHostStatus node manifest.name).Holds good (fun past _ dir after => inv past dir ∧ after = own) past dir own := by
  unfold modelHostStatus
  split
  · rw [holds_bind]
    refine hsteady.wait _ ?_ hinv fun past verdict dir hinv => ⟨hinv, rfl⟩
    exact .inr (.inl rfl)
  · refine hsteady.wait (.remoteStatus node manifest.name) ?_ hinv fun past answer dir hinv => ⟨hinv, rfl⟩
    exact .inr (.inr ⟨node, rfl⟩)

theorem startModelHost_holds (validateSpec : ModelHostSpec → Option String)
    (hsteady : Steady good inv (agentCall manifest.name))
    (hsave : ∀ past dir, inv past dir → inv past (saveModelHost (mergeDiskManagedByLabel manifest dir) dir))
    (aborted : Bool) (hinv : inv past dir) :
    (startModelHost validateSpec manifest aborted).Holds good (fun past result dir after => inv past dir ∧
      AgentFacts manifest own after result) past dir own := by
  have hsame := SameRecords.refl manifest.name own
  unfold startModelHost
  split
  · exact ⟨hinv, .of_error hsame⟩
  split
  · exact ⟨hinv, .of_error hsame⟩
  rw [holds_bind, holds_modifyShared]
  split
  · exact ⟨hsave past dir hinv, .of_error hsame⟩
  · exact launchModelHost_holds hsteady (hsave past dir hinv)

theorem startAnswer_holds (validateSpec : ModelHostSpec → Option String)
    (hsteady : Steady good inv (agentCall manifest.name))
    (hsave : manifest.spec.node = localNodeId → ∀ past dir, inv past dir →
      inv past (saveModelHost (mergeDiskManagedByLabel manifest dir) dir))
    (answer : StartAnswer) (hinv : inv past dir) :
    (startAnswer validateSpec manifest answer).Holds good (fun past result dir after => inv past dir ∧
      (manifest.spec.node = localNodeId → StartFacts manifest own after ∧
        ∀ answer, result = some (.ok answer) → RecordOf manifest.spec (after.files manifest.name))) past dir own := by
  unfold startAnswer
  split
  · rename_i hnode
    apply (startModelHost_holds validateSpec hsteady (hsave hnode) answer.aborted hinv).bind
    rintro past result dir after ⟨hinv, hfacts⟩
    cases result with
    | error message => exact ⟨hinv, fun _ => ⟨hfacts.startFacts, fun answer hanswer => by cases hanswer⟩⟩
    | ok pid =>
      obtain ⟨startedAt, slotSavePath, hstate⟩ := hfacts.launched pid rfl
      refine ⟨hinv, fun _ => ⟨hfacts.startFacts, fun answer _ => ?_⟩⟩
      exact ⟨_, startedAt, slotSavePath, by exact_mod_cast pid.pos, hstate⟩
  · rename_i hnode
    exact ⟨hinv, fun h => absurd h hnode⟩

/-- From the start call on, an apply keeps what the agent's waits and its one save keep. A
start that is taken as successful has left a launch record. -/
theorem startModelHostProcess_holds {started : List PassWait → WorkloadsDir → Prop}
    (validateSpec : ModelHostSpec → Option String) (hstart : ∀ past dir reply, inv past dir →
      good past ⟨⟨.modelHostStart manifest, dir⟩, reply⟩ ∧
        started (past ++ [⟨⟨.modelHostStart manifest, dir⟩, reply⟩]) reply.1)
    (hsteady : Steady good started (startedCall manifest.name))
    (hsave : manifest.spec.node = localNodeId → ∀ past dir, started past dir →
      started past (saveModelHost (mergeDiskManagedByLabel manifest dir) dir))
    (hinv : inv past dir) :
    (startModelHostProcess validateSpec manifest).Holds good (fun past result dir after =>
      started past dir ∧ (manifest.spec.node = localNodeId → StartFacts manifest own after ∧
        ∀ pid, result = .ok (.ok pid) → RecordOf manifest.spec (after.files manifest.name))) past dir own := by
  unfold startModelHostProcess
  rw [holds_bind, holds_wait]
  intro reply
  obtain ⟨hgood, hstarted⟩ := hstart past dir reply hinv
  refine ⟨hgood, ?_⟩
  have hagent : Steady good started (agentCall manifest.name) :=
    ⟨fun past dir call reply hcall => hsteady.step past dir call reply (.inl hcall)⟩
  apply (startAnswer_holds validateSpec hagent hsave reply.2 hstarted).bind
  rintro past result dir after ⟨hstarted, hfacts⟩
  have hnot : ∀ {outcome : Except Thrown (Except String (Option Int))}, (∀ pid, outcome ≠ .ok (.ok pid)) →
      started past dir ∧ (manifest.spec.node = localNodeId → StartFacts manifest own after ∧
        ∀ pid, outcome = .ok (.ok pid) → RecordOf manifest.spec (after.files manifest.name)) :=
    fun hne => ⟨hstarted, fun hnode => ⟨(hfacts hnode).1, fun pid hpid => absurd hpid (hne pid)⟩⟩
  have hdone : ∀ {outcome : Except Thrown (Except String (Option Int))} {answer},
      result = some (.ok answer) → started past dir ∧ (manifest.spec.node = localNodeId →
        StartFacts manifest own after ∧
        ∀ pid, outcome = .ok (.ok pid) → RecordOf manifest.spec (after.files manifest.name)) :=
    fun hresult => ⟨hstarted, fun hnode => ⟨(hfacts hnode).1, fun _ _ => (hfacts hnode).2 _ hresult⟩⟩
  split
  · exact hnot (by simp)
  split
  · exact hnot (by simp)
  · exact hnot (by simp)
  · exact hdone rfl
  have hrecord : manifest.spec.node = localNodeId → StartFacts manifest own after ∧
      RecordOf manifest.spec (after.files manifest.name) :=
    fun hnode => ⟨(hfacts hnode).1, (hfacts hnode).2 _ rfl⟩
  apply (modelHostStatus_holds hsteady hstarted manifest.spec.node).bind
  rintro past status dir _ ⟨hstarted, rfl⟩
  split
  · exact ⟨hstarted, fun hnode => ⟨(hrecord hnode).1, fun _ _ => (hrecord hnode).2⟩⟩
  · exact ⟨hstarted, fun hnode => ⟨(hrecord hnode).1, fun _ _ => (hrecord hnode).2⟩⟩

theorem writeModelHostSidecar_holds (hsteady : Steady good inv (startedCall manifest.name)) (pid : Option Int)
    (hinv : inv past dir) :
    (writeModelHostSidecar manifest pid).Holds good (fun past _ dir after => inv past dir ∧
      StartFacts manifest own after ∧
        (RecordOf manifest.spec (own.files manifest.name) → RecordOf manifest.spec (after.files manifest.name)))
      past dir own := by
  have hkept : StartFacts manifest own own ∧ (RecordOf manifest.spec (own.files manifest.name) →
      RecordOf manifest.spec (own.files manifest.name)) := ⟨⟨.inl rfl, rfl⟩, id⟩
  unfold writeModelHostSidecar
  rw [holds_bind]
  refine hsteady.wait _ ?_ hinv fun past startedAt dir hinv => ?_
  · exact .inl rfl
  split
  · exact ⟨hinv, hkept⟩
  rename_i pid
  split
  · rename_i howns
    have hrecord : RecordOf manifest.spec ((own.updateFiles manifest.name fun files =>
        writeModelHostState (launchRecord manifest.spec pid startedAt
          (((readModelHostState files).filter (·.pid = pid)).bind (·.slotSavePath))) files).files manifest.name) := by
      rw [Own.updateFiles_self]
      exact ⟨pid, startedAt, _, howns.2, rfl⟩
    refine ⟨hinv, ⟨.inr hrecord, ?_⟩, fun _ => hrecord⟩
    rw [Own.updateFiles_self]
    rfl
  · exact ⟨hinv, hkept⟩

theorem StartFacts.trans {before mid after : Own} (h : StartFacts manifest before mid)
    (h' : StartFacts manifest mid after) : StartFacts manifest before after where
  state := by
    rcases h'.state with hsame | hrecord
    · rcases h.state with hfirst | hrecord
      · exact .inl (hsame.trans hfirst)
      · exact .inr (by unfold RecordOf at hrecord ⊢; rwa [hsame])
    · exact .inr hrecord
  attempt := h'.attempt.trans h.attempt

theorem applyModelHostManifest_holds (inv started : List PassWait → WorkloadsDir → Prop)
    (validateSpec : ModelHostSpec → Option String) (henabled : manifest.spec.enabled = true)
    (hbudget : Steady good inv (· = .admitBudget manifest)) (hstart : ∀ past dir reply, inv past dir →
      good past ⟨⟨.modelHostStart manifest, dir⟩, reply⟩ ∧
        started (past ++ [⟨⟨.modelHostStart manifest, dir⟩, reply⟩]) reply.1)
    (hsteady : Steady good started (startedCall manifest.name))
    (hsave : manifest.spec.node = localNodeId → ∀ past dir, started past dir →
      started past (saveModelHost (mergeDiskManagedByLabel manifest dir) dir))
    (hinv : inv past dir) :
    (applyModelHostManifest validateSpec manifest).Holds good (fun past result dir after =>
      (inv past dir ∧ after = own ∧ ∀ applied, result ≠ .ok (.ok applied)) ∨
      (started past dir ∧ (∀ applied, result = .ok (.ok applied) → applied.manifest = manifest) ∧
        (manifest.spec.node = localNodeId → StartFacts manifest own after ∧
          ∀ applied, result = .ok (.ok applied) → RecordOf manifest.spec (after.files manifest.name)))) past dir own := by
  unfold applyModelHostManifest
  split
  · exact .inl ⟨hinv, rfl, by simp⟩
  rw [if_pos henabled]
  split
  · exact .inl ⟨hinv, rfl, by simp⟩
  rw [holds_bind]
  refine hbudget.wait _ rfl hinv fun past admitted dir hinv => ?_
  split
  · exact .inl ⟨hinv, rfl, by simp⟩
  · exact .inl ⟨hinv, rfl, by simp⟩
  apply (startModelHostProcess_holds validateSpec hstart hsteady hsave hinv).bind
  rintro past result dir after ⟨hstarted, hfacts⟩
  split
  · exact .inr ⟨hstarted, by simp, fun hnode => ⟨(hfacts hnode).1, by simp⟩⟩
  · exact .inr ⟨hstarted, by simp, fun hnode => ⟨(hfacts hnode).1, by simp⟩⟩
  rename_i pid
  apply (writeModelHostSidecar_holds hsteady pid hstarted).bind
  rintro past _ dir last ⟨hstarted, hsidecar, hrecord⟩
  refine .inr ⟨hstarted, ?_, fun hnode => ⟨(hfacts hnode).1.trans hsidecar, ?_⟩⟩
  · intro applied happlied
    cases happlied
    rfl
  · exact fun _ _ => hrecord ((hfacts hnode).2 pid rfl)

theorem stopModelHost_holds {name : String} (hsteady : Steady good inv (agentCall name)) (hinv : inv past dir) :
    (stopModelHost name).Holds good (fun past _ dir _ => inv past dir) past dir own := by
  -- Both records are handled alike: identify the pid, tear it down, remove the record.
  have hrecord : ∀ (pid : Int) (remove : HostFiles → HostFiles), (do
      let verdict ← wait (.verifyPidFile name pid)
      if verdict = .unknown then return some "pid identity unknown"
      else
        teardownAlive name pid verdict
        updateFiles name remove
        return none : Pass (Option String)).Holds good (fun past _ dir _ => inv past dir) past dir own := by
    intro pid remove
    rw [holds_bind]
    refine hsteady.wait _ ?_ hinv fun past verdict dir hinv => ?_
    · exact rfl
    split
    · exact hinv
    apply (teardownAlive_holds hsteady hinv pid verdict).bind
    rintro past _ dir _ ⟨hinv, -⟩
    exact hinv
  unfold stopModelHost stopStartingRecord
  rw [holds_bind, holds_getFiles]
  split
  · rw [holds_bind, holds_getFiles]
    split
    · exact hinv
    · exact hrecord _ _
  · exact hrecord _ _

theorem disableModelHost_holds {stopped : List PassWait → WorkloadsDir → Prop}
    (hstop : ∀ past dir reply, inv past dir →
      good past ⟨⟨.modelHostStop manifest, dir⟩, reply⟩ ∧
        stopped (past ++ [⟨⟨.modelHostStop manifest, dir⟩, reply⟩]) reply.1)
    (hsteady : Steady good stopped (agentCall manifest.name)) (hinv : inv past dir) :
    (disableModelHost manifest).Holds good (fun past result dir _ => stopped past dir ∧
      ∀ applied, result = .ok applied → applied.manifest = manifest) past dir own := by
  unfold disableModelHost
  rw [holds_bind, holds_wait]
  intro reply
  obtain ⟨hgood, hstopped⟩ := hstop past dir reply hinv
  refine ⟨hgood, ?_⟩
  have hrefusal : (stopRefusal manifest reply.2).Holds good (fun past _ dir _ => stopped past dir)
      (past ++ [⟨⟨.modelHostStop manifest, dir⟩, reply⟩]) reply.1 own := by
    unfold stopRefusal
    split
    · exact (stopModelHost_holds hsteady hstopped).bind fun _ _ _ _ h => h
    · exact hstopped
  apply hrefusal.bind
  intro past refusal dir after hstopped
  split
  · exact ⟨hstopped, by simp⟩
  · exact ⟨hstopped, by simp⟩
  refine ⟨hstopped, fun applied happlied => ?_⟩
  cases happlied
  rfl

/-- An apply of either kind goes from one invariant to the next with its start or its stop,
and only then can it succeed. -/
theorem applyModelHostManifest_keeps (inv reached : List PassWait → WorkloadsDir → Prop)
    (validateSpec : ModelHostSpec → Option String) (hbudget : Steady good inv (· = .admitBudget manifest))
    (hreach : ∀ call, call = .modelHostStart manifest ∨ call = .modelHostStop manifest →
      ∀ past dir (reply : WorkloadsDir × Answer call), inv past dir →
        good past ⟨⟨call, dir⟩, reply⟩ ∧ reached (past ++ [⟨⟨call, dir⟩, reply⟩]) reply.1)
    (hsteady : Steady good reached (startedCall manifest.name))
    (hsave : manifest.spec.node = localNodeId → ∀ past dir, reached past dir →
      reached past (saveModelHost (mergeDiskManagedByLabel manifest dir) dir))
    (hinv : inv past dir) :
    (applyModelHostManifest validateSpec manifest).Holds good (fun past result dir _ =>
      (inv past dir ∧ ∀ applied, result ≠ .ok (.ok applied)) ∨
      (reached past dir ∧ ∀ applied, result = .ok (.ok applied) → applied.manifest = manifest)) past dir own := by
  cases henabled : manifest.spec.enabled with
  | true =>
    apply (applyModelHostManifest_holds inv reached validateSpec henabled hbudget
      (hreach (.modelHostStart manifest) (.inl rfl)) hsteady hsave hinv).mono
    rintro past result dir after (⟨hinv, -, hfailed⟩ | ⟨hreached, hmanifest, -⟩)
    · exact .inl ⟨hinv, hfailed⟩
    · exact .inr ⟨hreached, hmanifest⟩
  | false =>
    have hagent : Steady good reached (agentCall manifest.name) :=
      ⟨fun past dir call reply hcall => hsteady.step past dir call reply (.inl hcall)⟩
    unfold applyModelHostManifest
    split
    · exact .inl ⟨hinv, by simp⟩
    rw [if_neg (by simp [henabled])]
    apply (disableModelHost_holds (hreach (.modelHostStop manifest) (.inr rfl)) hagent hinv).bind
    rintro past result dir after ⟨hreached, hmanifest⟩
    refine .inr ⟨hreached, fun applied happlied => hmanifest applied ?_⟩
    exact Except.ok.inj happlied

end

end llamactl.modelhost
