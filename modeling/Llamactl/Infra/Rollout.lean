import Mathlib.Data.List.Basic
import Mathlib.Data.List.Flatten

open List

namespace llamactl.infra.rollout

/-! `infra-rollout.ts`: a version is brought to the peers group by group, behind a health gate. -/

inductive InfraRolloutStrategy where
  | oneAtATime
  | all

variable {PeerNode : Type} (id : PeerNode → String)

def planRollout (peers : List PeerNode) (localNodeId : String) : InfraRolloutStrategy → List (List PeerNode)
  | .all =>
    [peers.filter fun peer => id peer ≠ localNodeId, peers.filter fun peer => id peer = localNodeId].filter
      fun group => 0 < group.length
  | .oneAtATime =>
    ((peers.filter fun peer => id peer ≠ localNodeId) ++ peers.filter fun peer => id peer = localNodeId).map fun peer => [peer]

structure RolloutOptions where
  pkg : String
  version : String
  previousVersion : Option String := none
  tarballUrl : String
  sha256 : String
  skipIfPresent : Bool
  healthTimeoutMs : Nat := 60000
  pollIntervalMs : Nat := 1000

inductive Health where
  | healthy
  | timeout
  | rejected
  deriving DecidableEq

/-- A request to a peer's client, with how it was settled; its arguments are those of the options. -/
inductive Issued (PeerNode : Type) where
  | install (peer : PeerNode) (fulfilled : Bool)
  | activate (peer : PeerNode) (version : String) (fulfilled : Bool)
  | pollHealth (peer : PeerNode) (health : Health)
  deriving DecidableEq

namespace Issued

def peer : Issued PeerNode → PeerNode
  | .install peer _ | .activate peer _ _ | .pollHealth peer _ => peer

def succeeded : Issued PeerNode → Bool
  | .install _ fulfilled | .activate _ _ fulfilled => fulfilled
  | .pollHealth _ health => health = .healthy

/-- What was to be activated, and where. -/
def activation : Issued PeerNode → Option (PeerNode × String)
  | .activate peer version _ => some (peer, version)
  | _ => none

end Issued

/-- How the clients answer, after what they were sent before. -/
structure Clients (PeerNode : Type) where
  install : List (Issued PeerNode) → PeerNode → Bool
  activate : String → List (Issued PeerNode) → PeerNode → Bool
  pollHealth : List (Issued PeerNode) → PeerNode → Health

inductive RolloutPlan where
  | ok
  | failed (reason : String)
  | threw
  deriving DecidableEq

/-- `Promise.allSettled` and `Promise.all` over the requests of a group, all of which are sent. -/
def settle {Reply : Type} (issue : PeerNode → Reply → Issued PeerNode) (reply : List (Issued PeerNode) → PeerNode → Reply) :
    List (Issued PeerNode) → List PeerNode → List (Issued PeerNode)
  | _, [] => []
  | past, peer :: peers =>
    issue peer (reply past peer) :: settle issue reply (past ++ [issue peer (reply past peer)]) peers

def afterHealth (healths : List (Issued PeerNode)) : RolloutPlan :=
  if healths.any fun issued => issued matches .pollHealth _ .rejected then .threw
  else if healths.any (!·.succeeded) then .failed "health-timeout" else .ok

section

variable (clients : Clients PeerNode) (opts : RolloutOptions)

def activateAll (version : String) : List (Issued PeerNode) → List PeerNode → List (Issued PeerNode) :=
  settle (fun peer fulfilled => .activate peer version fulfilled) (clients.activate version)

def runGroup (past : List (Issued PeerNode)) (group : List PeerNode) : RolloutPlan × List (Issued PeerNode) :=
  let installs := settle .install clients.install past group
  if installs.any (!·.succeeded) then (.failed "install-failed", installs)
  else
    let activates := activateAll clients opts.version (past ++ installs) group
    if activates.any (!·.succeeded) then
      let switched := (activates.filter Issued.succeeded).map Issued.peer
      let back := opts.previousVersion.elim [] fun previousVersion =>
        activateAll clients previousVersion (past ++ installs ++ activates) switched
      (.failed "activate-failed", installs ++ (activates ++ back))
    else
      let healths := settle .pollHealth clients.pollHealth (past ++ installs ++ activates) group
      (afterHealth healths, installs ++ (activates ++ healths))

def runRollout (past : List (Issued PeerNode)) : List (List PeerNode) → RolloutPlan × List (Issued PeerNode)
  | [] => (.ok, [])
  | group :: groups =>
    match runGroup clients opts past group with
    | (.ok, steps) => ((runRollout (past ++ steps) groups).1, steps ++ (runRollout (past ++ steps) groups).2)
    | stopped => stopped

/-- Every peer of the group was installed, activated and found healthy. -/
def healthySteps (group : List PeerNode) : List (Issued PeerNode) :=
  group.map (Issued.install · true) ++ (group.map (Issued.activate · opts.version true) ++ group.map (Issued.pollHealth · .healthy))

/-- Some step failed, and once an activation is refused the activated peers are sent the previous version. -/
def StoppedAt (group : List PeerNode) (steps : List (Issued PeerNode)) : Prop :=
  (∃ issued ∈ steps, issued.succeeded = false) ∧ (∀ issued ∈ steps, issued.peer ∈ group) ∧
    ((∃ peer, .activate peer opts.version false ∈ steps) → ∀ previousVersion, opts.previousVersion = some previousVersion →
      ∃ installs activates back, steps = installs ++ (activates ++ back) ∧
        activates.map Issued.activation = group.map (fun peer => some (peer, opts.version)) ∧
        back.map Issued.activation =
          (activates.filter Issued.succeeded).map fun issued => some (issued.peer, previousVersion))

variable {clients opts} {Reply : Type} {issue : PeerNode → Reply → Issued PeerNode}
  {reply : List (Issued PeerNode) → PeerNode → Reply}

theorem settle_map {A : Type} {view : Issued PeerNode → A} (expected : PeerNode → A)
    (hview : ∀ peer reply, view (issue peer reply) = expected peer) (past : List (Issued PeerNode)) (peers : List PeerNode) :
    (settle issue reply past peers).map view = peers.map expected := by
  induction peers generalizing past with
  | nil => rfl
  | cons peer peers ih => simp [settle, hview, ih]

theorem settle_succeeded (issue : PeerNode → Reply → Issued PeerNode) {good : Reply}
    (hgood : ∀ peer reply, (issue peer reply).succeeded = true → reply = good)
    {past : List (Issued PeerNode)} {peers : List PeerNode} (hall : (settle issue reply past peers).any (!·.succeeded) = false) :
    settle issue reply past peers = peers.map (issue · good) := by
  induction peers generalizing past with
  | nil => rfl
  | cons peer peers ih =>
    simp only [settle, any_cons, Bool.or_eq_false_iff, Bool.not_eq_false'] at hall
    rw [settle, ih hall.2, hgood peer _ hall.1, map_cons]

theorem settle_mem {past : List (Issued PeerNode)} {peers : List PeerNode} {issued : Issued PeerNode}
    (hmem : issued ∈ settle issue reply past peers) : ∃ peer ∈ peers, ∃ settled, issued = issue peer settled := by
  induction peers generalizing past with
  | nil => cases hmem
  | cons peer peers ih =>
    obtain heq | hlater := mem_cons.mp hmem
    · exact ⟨peer, mem_cons_self, _, heq⟩
    · obtain ⟨other, hother, settled, heq⟩ := ih hlater
      exact ⟨other, mem_cons_of_mem _ hother, settled, heq⟩

theorem any_failed {steps : List (Issued PeerNode)} (hany : steps.any (!·.succeeded) = true) :
    ∃ issued ∈ steps, issued.succeeded = false := by
  simpa using hany

theorem afterHealth_ok {healths : List (Issued PeerNode)} : afterHealth healths = .ok ↔ healths.any (!·.succeeded) = false := by
  constructor
  · intro hok
    unfold afterHealth at hok
    split_ifs at hok with hrejected hfailed
    exact Bool.eq_false_iff.mpr hfailed
  intro hnone
  have hrejected : (healths.any fun issued => issued matches .pollHealth _ .rejected) = false := by
    rw [any_eq_false] at hnone ⊢
    intro issued hmem
    have hsucceeded := hnone issued hmem
    rcases issued with _ | _ | ⟨_, _ | _ | _⟩ <;> simp_all [Issued.succeeded]
  simp [afterHealth, hrejected, hnone]

variable (clients opts) in
/-- A group is healthy as a whole, or it stops the rollout and leaves a step that failed. -/
theorem runGroup_cases (past : List (Issued PeerNode)) (group : List PeerNode) :
    runGroup clients opts past group = (.ok, healthySteps opts group) ∨
      (runGroup clients opts past group).1 ≠ .ok ∧ StoppedAt opts group (runGroup clients opts past group).2 := by
  unfold runGroup
  extract_lets installs activates switched back healths
  have hinstalls : ∀ issued ∈ installs, ∃ peer ∈ group, ∃ settled, issued = .install peer settled := fun _ => settle_mem
  have hactivates : ∀ issued ∈ activates, ∃ peer ∈ group, ∃ settled, issued = .activate peer opts.version settled :=
    fun _ => settle_mem
  have hhealths : ∀ issued ∈ healths, ∃ peer ∈ group, ∃ settled, issued = .pollHealth peer settled := fun _ => settle_mem
  split_ifs with hinstall hactivate
  · exact .inr ⟨by simp, any_failed hinstall, by grind [Issued.peer], by grind⟩
  · obtain ⟨issued, hissued, hfailed⟩ := any_failed hactivate
    have hback : ∀ issued ∈ back, ∃ peer ∈ switched, ∃ version settled, issued = .activate peer version settled := by
      intro issued hmem
      cases hprevious : opts.previousVersion with
      | none => simp [back, hprevious] at hmem
      | some previousVersion =>
        simp only [back, hprevious, Option.elim_some] at hmem
        obtain ⟨peer, hpeer, settled, heq⟩ := settle_mem hmem
        exact ⟨peer, hpeer, previousVersion, settled, heq⟩
    have hswitched : ∀ peer ∈ switched, peer ∈ group := by grind [Issued.peer]
    refine .inr ⟨by simp, ⟨issued, by simp [hissued], hfailed⟩, by grind [Issued.peer], fun _ previousVersion hprevious => ?_⟩
    have hactivation : activates.map Issued.activation = group.map fun peer => some (peer, opts.version) :=
      settle_map (fun peer => some (peer, opts.version)) (fun _ _ => rfl) _ _
    refine ⟨installs, activates, back, rfl, hactivation, ?_⟩
    simp only [back, hprevious, Option.elim_some, switched]
    rw [activateAll, settle_map (fun peer => some (peer, previousVersion)) (fun _ _ => rfl), map_map]
    rfl
  by_cases hhealth : healths.any (!·.succeeded) = true
  · obtain ⟨issued, hissued, hfailed⟩ := any_failed hhealth
    have hstopped : afterHealth healths ≠ .ok := fun hok => by simp [afterHealth_ok.mp hok] at hhealth
    have hactivated : ∀ issued ∈ activates, issued.succeeded = true := by simpa using hactivate
    exact .inr ⟨hstopped, ⟨issued, by simp [hissued], hfailed⟩, by grind [Issued.peer], by grind [Issued.succeeded]⟩
  rw [Bool.not_eq_true] at hinstall hactivate hhealth
  have hinstalled : installs = group.map (Issued.install · true) := settle_succeeded Issued.install (fun _ _ h => h) hinstall
  have hactivated : activates = group.map (Issued.activate · opts.version true) :=
    settle_succeeded (Issued.activate · opts.version) (fun _ _ h => h) hactivate
  have hhealthy : healths = group.map (Issued.pollHealth · .healthy) :=
    settle_succeeded Issued.pollHealth (fun _ _ h => by simpa [Issued.succeeded] using h) hhealth
  exact .inl (by rw [afterHealth_ok.mpr hhealth, hinstalled, hactivated, hhealthy, healthySteps])

variable (clients opts) in
theorem runRollout_cases (past : List (Issued PeerNode)) (groups : List (List PeerNode)) :
    runRollout clients opts past groups = (.ok, groups.flatMap (healthySteps opts)) ∨
      (runRollout clients opts past groups).1 ≠ .ok ∧ ∃ done group later steps, groups = done ++ group :: later ∧
        (runRollout clients opts past groups).2 = done.flatMap (healthySteps opts) ++ steps ∧ StoppedAt opts group steps := by
  induction groups generalizing past with
  | nil => exact .inl rfl
  | cons group groups ih =>
    obtain hhealthy | ⟨hplan, hstopped⟩ := runGroup_cases clients opts past group
    · obtain hok | ⟨hplan, done, failing, later, steps, rfl, hsteps, hstopped⟩ := ih (past ++ healthySteps opts group)
      · exact .inl (by simp [runRollout, hhealthy, hok])
      · exact .inr ⟨by simpa [runRollout, hhealthy] using hplan, group :: done, failing, later, steps, rfl,
          by simp [runRollout, hhealthy, hsteps], hstopped⟩
    have hrollout : runRollout clients opts past (group :: groups) = runGroup clients opts past group := by
      rw [runRollout]
      split
      · next heq => simp [heq] at hplan
      · rfl
    exact .inr ⟨hrollout ▸ hplan, [], group, groups, _, rfl, rfl, hrollout ▸ hstopped⟩

theorem healthySteps_succeeded {group : List PeerNode} {issued : Issued PeerNode} (hmem : issued ∈ healthySteps opts group) :
    issued.succeeded = true := by
  simp only [healthySteps, mem_append, mem_map] at hmem
  obtain ⟨_, _, rfl⟩ | ⟨_, _, rfl⟩ | ⟨_, _, rfl⟩ := hmem
  all_goals simp [Issued.succeeded]

/-- The peers are planned once each with the local node last, the rollout is reported done iff every
peer was installed, activated and found healthy, and it stops at the group that is not. -/
theorem rollout_gated (clients : Clients PeerNode) (opts : RolloutOptions) (past : List (Issued PeerNode))
    (groups : List (List PeerNode)) (peers : List PeerNode) (localNodeId : String) (strategy : InfraRolloutStrategy) :
    ((planRollout id peers localNodeId strategy).flatten.Perm peers ∧
      (planRollout id peers localNodeId strategy).flatten =
        peers.filter (id · ≠ localNodeId) ++ peers.filter (id · = localNodeId)) ∧
    ((runRollout clients opts past groups).1 = .ok ↔
      (runRollout clients opts past groups).2 = groups.flatMap (healthySteps opts)) ∧
    ((runRollout clients opts past groups).1 ≠ .ok → ∃ done group later steps, groups = done ++ group :: later ∧
      (runRollout clients opts past groups).2 = done.flatMap (healthySteps opts) ++ steps ∧ StoppedAt opts group steps) := by
  have hflatten : (planRollout id peers localNodeId strategy).flatten =
      peers.filter (id · ≠ localNodeId) ++ peers.filter (id · = localNodeId) := by
    cases strategy with
    | all =>
      simp only [planRollout, length_pos_iff, flatten_filter_ne_nil]
      simp
    | oneAtATime => rw [planRollout, ← flatMap_def, flatMap_singleton']
  refine ⟨⟨?_, hflatten⟩, ?_, ?_⟩
  · rw [hflatten]
    exact perm_append_comm.trans (by simpa using filter_append_perm (id · = localNodeId) peers)
  all_goals obtain hok | ⟨hplan, hstopped⟩ := runRollout_cases clients opts past groups
  · simp [hok]
  · refine iff_of_false hplan fun hsteps => ?_
    obtain ⟨done, group, later, steps, -, heq, ⟨issued, hissued, hfailed⟩, -⟩ := hstopped
    have hmem : issued ∈ groups.flatMap (healthySteps opts) := hsteps ▸ heq ▸ mem_append_right _ hissued
    obtain ⟨healthy, -, hhealthy⟩ := mem_flatMap.mp hmem
    simp [healthySteps_succeeded hhealthy] at hfailed
  · exact fun hplan => (hplan (by rw [hok])).elim
  · exact fun _ => hstopped

/-- An activated peer that does not answer healthy in time is left on the new version. -/
theorem rollout_health_timeout :
    let clients : Clients String := ⟨fun _ _ => true, fun _ _ _ => true, fun _ _ => .timeout⟩
    let opts : RolloutOptions :=
      { pkg := "llama-cpp", version := "b2", previousVersion := some "b1", tarballUrl := "http://cp/b2.tgz", sha256 := "00",
        skipIfPresent := true }
    let rollout := runRollout clients opts [] (planRollout (fun peer => peer) ["mac"] "mac" .all)
    rollout.1 = .failed "health-timeout" ∧ .activate "mac" "b2" true ∈ rollout.2 ∧
      ∀ fulfilled, .activate "mac" "b1" fulfilled ∉ rollout.2 := by
  decide

end

end llamactl.infra.rollout
