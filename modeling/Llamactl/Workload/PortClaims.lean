import Llamactl.Effect.Transition
import Llamactl.Workload.ApplyOne
import Llamactl.Workload.HostPass
import Mathlib.Data.String.Basic

open collections effect effect.Task List

namespace llamactl.workload

open modelhost

/-! Which of the workloads whose endpoints collide gets the port. The check of an apply reads the
stored statuses of the others, which a pass rewrites one after the other. -/

/-- The stored ModelRun of a name, as `listWorkloads` reads it. -/
def runOf (dir : WorkloadsDir) (name : String) : Option ModelRun :=
  match dir.get? name with
  | some (.modelRun manifest) => if modelRunAccepted manifest then some manifest else none
  | _ => none

def ModelRun.running (manifest : ModelRun) : Bool := manifest.status.any (·.phase = "Running")

/-- What others are in a pass that nobody else writes during: the resolver of node identities, the
answers to the apply of each workload, and those to the calls for the ModelHosts. A reconciler has no
dispatcher of gateways. -/
structure Serving where
  resolveNodeIdentity : Option (String → Option String)
  answers : String → ApplyAnswers
  others : List PassWait → (call : Call) → Answer call

namespace Serving

variable (serving : Serving)

def applyAnswers (name : String) : ApplyAnswers := { serving.answers name with gateway := none }

def answer (past : List PassWait) : (e : Awaited WorkloadsDir Call) → Resumed WorkloadsDir Answer e
  | ⟨.applyOne manifest, dir⟩ =>
    (dir, applyOne serving.resolveNodeIdentity (serving.applyAnswers manifest.name) dir manifest)
  | ⟨call, dir⟩ => (dir, serving.others past call)

def Serves (wait : PassWait) : Prop := ∃ past, wait.reply = serving.answer past wait.call

/-- The node of the workload has a client. -/
def hasClient (name : String) : Prop := (serving.answers name).client = .ok ()

end Serving

/-- A pass of the reconciler. -/
structure Reconcile where
  setup : Setup
  filter : ModelRun → Bool
  serving : Serving
  own : Own

namespace Reconcile

variable (pass : Reconcile) (dir : WorkloadsDir)

/-- The waits of the pass, its errors, and what it leaves behind. -/
def result : List PassWait × Nat × WorkloadsDir × Own :=
  (reconcileOnce pass.setup pass.filter dir pass.own).answeredBy pass.serving.answer []

def trace : List PassWait := (pass.result dir).1

def finish : WorkloadsDir := (pass.result dir).2.2.1

def taken : List ModelRun := (listWorkloads dir).filter pass.filter

def collide (manifest other : ModelRun) : Bool := workload.collide pass.serving.resolveNodeIdentity manifest other

end Reconcile

/-- The apply of the workload came back with the result. -/
def Applied (trace : List PassWait) (manifest : ModelRun) (result : ApplyResult) : Prop :=
  ∃ dir later, (⟨⟨.applyOne manifest, dir⟩, (later, .ok result)⟩ : PassWait) ∈ trace

/-- The workload was started or kept running. -/
def Converged (trace : List PassWait) (manifest : ModelRun) : Prop :=
  ∃ result, Applied trace manifest result ∧ result.statusSection.phase = "Running"

/-- The workload was flagged with a port collision, in favour of the other. -/
def FlaggedFor (resolveNodeIdentity : Option (String → Option String)) (trace : List PassWait)
    (manifest other : ModelRun) : Prop :=
  ∃ dir later now, (⟨⟨.applyOne manifest, dir⟩, (later, .ok (collisionResult now manifest other))⟩ : PassWait) ∈ trace ∧
    portClaimant resolveNodeIdentity dir manifest = some other

/-- What a pass makes of the claims to a port. -/
structure PortsKept (pass : Reconcile) (dir : WorkloadsDir) : Prop where
  one : ∀ a b, Converged (pass.trace dir) a → Converged (pass.trace dir) b → a.name ≠ b.name → pass.collide a b = false
  others : ∀ a b, Converged (pass.trace dir) a → b ∈ listWorkloads (pass.finish dir) → b.name ≠ a.name →
    b.spec.enabled = true → pass.collide a b = true → b.portCollision = true
  running : ∀ a b, FlaggedFor pass.serving.resolveNodeIdentity (pass.trace dir) a b → a.running = true →
    ∃ stored ∈ listWorkloads dir, stored.name = b.name ∧ stored.running = true

/-- Where a pass begins such that it keeps the ports. -/
structure Clear (pass : Reconcile) (dir : WorkloadsDir) : Prop where
  named : WellNamed dir
  loads : ∀ a ∈ pass.taken dir, a.spec.enabled = true →
    ∃ loaded, loadWorkloadByName pass.setup.env a.name dir = some loaded ∧ loaded.spec.node = a.spec.node ∧
      loaded.spec.endpoint = a.spec.endpoint
  gateways : ∀ a ∈ pass.taken dir, a.spec.gateway = true → a.spec.enabled = true →
    ∀ b ∈ listWorkloads dir, b.name ≠ a.name → b.spec.enabled = true → pass.collide a b = false
  /-- A workload that does not run and collides with one that does is flagged from before, or it is
  checked first. -/
  running : ∀ a ∈ pass.taken dir, a.spec.enabled = true → a.running = true → pass.serving.hasClient a.name →
    ∀ b ∈ listWorkloads dir, b.name ≠ a.name → b.spec.enabled = true → pass.collide a b = true → b.running = false →
      b.portCollision = true ∨ (b ∈ pass.taken dir ∧ b.name < a.name ∧ pass.serving.hasClient b.name)

section

variable {dir : WorkloadsDir} {manifest : ModelRun}

theorem mem_listWorkloads (hnamed : WellNamed dir) : manifest ∈ listWorkloads dir ↔ runOf dir manifest.name = some manifest := by
  unfold listWorkloads runOf
  rw [mem_insertionSort, mem_filterMap]
  constructor
  · rintro ⟨document, hdocument, hsome⟩
    obtain ⟨⟨name, stored⟩, hentry, rfl⟩ := mem_map.mp hdocument
    have hget := dir.get?_eq_some_iff.mpr hentry
    dsimp only at hsome
    split at hsome
    · split at hsome
      · cases hsome
        have hname : manifest.name = name := hnamed name _ hget _ rfl
        rw [hname, hget]
        simpa
      · cases hsome
    · cases hsome
  intro h
  split at h
  next stored hget =>
    refine ⟨.modelRun stored, mem_map.mpr ⟨_, dir.get?_eq_some_iff.mp hget, rfl⟩, h⟩
  · cases h

theorem listWorkloads_name (hnamed : WellNamed dir) {other : ModelRun} (h : manifest ∈ listWorkloads dir)
    (hother : other ∈ listWorkloads dir) (hname : manifest.name = other.name) : manifest = other := by
  rw [mem_listWorkloads hnamed] at h hother
  rw [hname, hother] at h
  exact (Option.some.inj h).symm

theorem name_of_accepted (hnamed : WellNamed dir) {entry : String × Document} {run : ModelRun} (hentry : entry ∈ dir.entries)
    (hrun : (match entry.2 with
      | .modelRun manifest => if modelRunAccepted manifest then some manifest else none
      | _ => none) = some run) : run.name = entry.1 := by
  have hget := dir.get?_eq_some_iff.mpr hentry
  split at hrun
  next stored hstored =>
    rw [hstored] at hget
    split at hrun
    · cases hrun
      exact hnamed _ _ hget _ rfl
    · cases hrun
  · cases hrun

theorem listWorkloads_names_ne (hnamed : WellNamed dir) : (listWorkloads dir).Pairwise fun a b => a.name ≠ b.name := by
  have hsymm : ∀ {a b : ModelRun}, a.name ≠ b.name → b.name ≠ a.name := fun h => h.symm
  rw [listWorkloads, (perm_insertionSort _ _).pairwise_iff hsymm, OrderedMap.values, pairwise_filterMap,
    pairwise_map]
  have hkeys : dir.entries.Pairwise fun a b => a.1 ≠ b.1 := pairwise_map.mp dir.nodup
  refine hkeys.imp_of_mem fun {a b} ha hb hne x hx y hy => ?_
  rw [name_of_accepted hnamed ha hx, name_of_accepted hnamed hb hy]
  exact hne

theorem listWorkloads_sorted (hnamed : WellNamed dir) : (listWorkloads dir).Pairwise fun a b => a.name < b.name := by
  have htotal : Std.Total fun a b : ModelRun => a.name ≤ b.name := ⟨fun a b => le_total a.name b.name⟩
  have htrans : IsTrans ModelRun fun a b => a.name ≤ b.name := ⟨fun a b c => le_trans⟩
  have hsorted : (listWorkloads dir).Pairwise fun a b => a.name ≤ b.name := pairwise_insertionSort _ _
  exact (hsorted.and (listWorkloads_names_ne hnamed)).imp fun h => lt_of_le_of_ne h.1 h.2

theorem runOf_set {key : String} {document : Document} (name : String) :
    runOf (dir.set key document) name =
      if name = key then
        match document with
        | .modelRun manifest => if modelRunAccepted manifest then some manifest else none
        | _ => none
      else runOf dir name := by
  unfold runOf
  rw [OrderedMap.get?_set]
  by_cases hname : name = key
  · simp only [hname, if_true]
    cases document <;> rfl
  · simp only [hname, if_false]

theorem runOf_congr {other : WorkloadsDir} {name : String} (h : dir.get? name = other.get? name) :
    runOf dir name = runOf other name := by
  unfold runOf
  rw [h]

end

section

variable {env : ProcessEnv} {manifest loaded : ModelRun}

theorem interpolateChars_plain {text : List Char} (h : '$' ∉ text) {rounds : Nat} (hrounds : text.length ≤ rounds) :
    interpolateChars env rounds text = .ok text := by
  induction text generalizing rounds with
  | nil => cases rounds <;> rfl
  | cons c rest ih =>
    obtain ⟨rounds, rfl⟩ : ∃ n, rounds = n + 1 := ⟨rounds - 1, by simp at hrounds; omega⟩
    rw [mem_cons, not_or] at h
    have hnone : envRef? (c :: rest) = none := by
      unfold envRef?
      split
      next heq => exact absurd (List.cons.inj heq).1.symm h.1
      · rfl
    unfold interpolateChars
    rw [hnone]
    simp only [ih h.2 (Nat.le_of_succ_le_succ hrounds)]
    rfl

theorem isManifestName_plain {name : String} (h : isManifestName name = true) : '$' ∉ name.toList := by
  have hchar : isNameChar '$' = false := by decide
  unfold isManifestName at h
  cases htext : name.toList with
  | nil => simp
  | cons first rest =>
    rw [htext] at h
    simp only [Bool.and_eq_true, all_eq_true] at h
    rw [mem_cons, not_or]
    refine ⟨fun heq => ?_, fun hmem => ?_⟩
    · rw [← heq, hchar] at h
      simp at h
    · rw [h.1.2 '$' hmem] at hchar
      cases hchar

theorem interpolateEnvRefsDeep_name (hname : isManifestName manifest.name = true)
    (h : interpolateEnvRefsDeep env manifest = .ok loaded) :
    loaded.name = manifest.name ∧ loaded.spec.enabled = manifest.spec.enabled := by
  unfold interpolateEnvRefsDeep at h
  obtain ⟨name, hsame, h⟩ := bind_eq_ok.mp h
  obtain ⟨labels, -, h⟩ := bind_eq_ok.mp h
  obtain ⟨annotations, -, h⟩ := bind_eq_ok.mp h
  obtain ⟨spec, hspec, h⟩ := bind_eq_ok.mp h
  cases h
  refine ⟨?_, ?_⟩
  · unfold interpolateEnvRefs at hsame
    obtain ⟨text, htext, hsame⟩ := bind_eq_ok.mp hsame
    rw [interpolateChars_plain (isManifestName_plain hname) (by rw [String.length_toList])] at htext
    cases htext
    cases hsame
    simp
  unfold interpolateSpec at hspec
  simp only [bind_eq_ok] at hspec
  obtain ⟨_, -, _, -, _, -, _, -, _, -, _, -, _, -, _, -, _, -, _, -, hspec⟩ := hspec
  cases hspec
  rfl

end

/-- What of a manifest the check of another's port reads, its status apart. -/
structure SameClaim (a b : ModelRun) : Prop where
  name : b.name = a.name
  enabled : b.spec.enabled = a.spec.enabled
  node : b.spec.node = a.spec.node
  endpoint : b.spec.endpoint = a.spec.endpoint

structure Claimed (pass : Reconcile) (start : WorkloadsDir) (done : List ModelRun) (past : List PassWait)
    (dir : WorkloadsDir) : Prop where
  named : WellNamed dir
  kept : ∀ name, (∀ a ∈ done, a.name ≠ name) → dir.get? name = start.get? name
  stored : ∀ b, runOf dir b.name = some b → b.spec.enabled = true → ∃ a, runOf start b.name = some a ∧ SameClaim a b
  converged : ∀ a, Converged past a → a ∈ done ∧
    (∃ b, runOf dir a.name = some b ∧ SameClaim a b ∧ b.spec.enabled = true ∧ b.portCollision = false) ∧
    ∀ b, runOf dir b.name = some b → b.name ≠ a.name → b.spec.enabled = true → pass.collide a b = true →
      b.portCollision = true
  flagged : ∀ a b, FlaggedFor pass.serving.resolveNodeIdentity past a b → a.running = true →
    ∃ stored ∈ listWorkloads start, stored.name = b.name ∧ stored.running = true
  yielded : ∀ b ∈ done, b.spec.enabled = true → b.spec.gateway = false → ∀ a ∈ listWorkloads start,
    (∀ c ∈ done, c.name ≠ a.name) → a.spec.enabled = true → a.running = true → pass.collide b a = true →
      (∃ flagged, runOf dir b.name = some flagged ∧ flagged.portCollision = true) ∨
      (¬ pass.serving.hasClient b.name ∧ dir.get? b.name = start.get? b.name)

/-- What the reconcile of `m` leaves behind, once its apply has answered. -/
structure Saved (m : ModelRun) (answer : Except Thrown ApplyResult) (dir next : WorkloadsDir) : Prop where
  named : WellNamed next
  others : ∀ name, name ≠ m.name → next.get? name = dir.get? name
  enabled : ∀ b, runOf next m.name = some b → b.spec.enabled = m.spec.enabled
  same : m.spec.enabled = true → ∃ b, runOf next m.name = some b ∧ SameClaim m b ∧
    ∀ result, answer = .ok result → b.status = some result.statusSection
  error : ∀ thrown, answer = .error thrown → next = dir

section

variable {pass : Reconcile} {start dir next : WorkloadsDir} {done rest : List ModelRun} {m : ModelRun}
  {past : List PassWait} {answer : Except Thrown ApplyResult}

theorem SameClaim.collide {a b : ModelRun} (h : SameClaim a b) (other : ModelRun) :
    pass.collide other b = pass.collide other a := by
  simp only [Reconcile.collide, workload.collide, h.node, h.endpoint]

theorem Reconcile.collide_comm (a b : ModelRun) : pass.collide a b = pass.collide b a := workload.collide_comm b

theorem portCollision_of_running {a : ModelRun} (h : a.running = true) : a.portCollision = false := by
  unfold ModelRun.running at h
  unfold ModelRun.portCollision
  cases hstatus : a.status with
  | none => rfl
  | some status =>
    simp only [hstatus, Option.any_some, decide_eq_true_eq] at h
    simp [ModelRunStatus.portCollision, h]

theorem taken_split (hnamed : WellNamed start) (hsplit : pass.taken start = done ++ m :: rest) :
    m ∈ pass.taken start ∧ (∀ a ∈ done, a ∈ pass.taken start) ∧ (∀ a ∈ done, a.name ≠ m.name) ∧
      ∀ b ∈ pass.taken start, b.name < m.name → b ∈ done := by
  have hsorted : (done ++ m :: rest).Pairwise fun a b => a.name < b.name := by
    rw [← hsplit]
    exact (listWorkloads_sorted hnamed).filter _
  rw [pairwise_append, pairwise_cons] at hsorted
  rw [hsplit]
  refine ⟨by simp, fun a ha => mem_append_left _ ha, fun a ha => ?_, fun b hb hlt => ?_⟩
  · exact ne_of_lt (hsorted.2.2 a ha m mem_cons_self)
  rcases mem_append.mp hb with hdone | hrest
  · exact hdone
  rcases mem_cons.mp hrest with rfl | hafter
  · exact absurd hlt (lt_irrefl _)
  · exact absurd (hsorted.2.1.1 b hafter) (lt_asymm hlt)

theorem mem_of_taken {a : ModelRun} (h : a ∈ pass.taken start) : a ∈ listWorkloads start := (mem_filter.mp h).1

theorem Claimed.mem (h : Claimed pass start done past dir) (hnamed : WellNamed start) {a : ModelRun}
    (ha : a ∈ listWorkloads start) (hdone : ∀ c ∈ done, c.name ≠ a.name) : a ∈ listWorkloads dir := by
  rw [mem_listWorkloads h.named, runOf_congr (h.kept a.name hdone)]
  exact (mem_listWorkloads hnamed).mp ha

theorem portClaimant_ne_none (pass : Reconcile) (m : ModelRun) (hnamed : WellNamed dir) {a : ModelRun} (ha : runOf dir a.name = some a)
    (hname : a.name ≠ m.name) (henabled : a.spec.enabled = true) (hclaims : a.portCollision = false)
    (hcollide : pass.collide m a = true) :
    ∃ other, portClaimant pass.serving.resolveNodeIdentity dir m = some other := by
  cases hclaimant : portClaimant pass.serving.resolveNodeIdentity dir m with
  | some other => exact ⟨other, rfl⟩
  | none =>
    have hflagged := portClaimant_eq_none hclaimant ((mem_listWorkloads hnamed).mpr ha) hname henabled hcollide
    rw [hclaims] at hflagged
    cases hflagged

theorem converged_append {later : WorkloadsDir} {a : ModelRun}
    (h : Converged (past ++ [⟨⟨.applyOne m, dir⟩, (later, answer)⟩]) a) :
    Converged past a ∨ (a = m ∧ ∃ result, answer = .ok result ∧ result.statusSection.phase = "Running") := by
  obtain ⟨result, ⟨before, after, hmem⟩, hphase⟩ := h
  rcases mem_append.mp hmem with hold | hnew
  · exact .inl ⟨result, ⟨before, after, hold⟩, hphase⟩
  · cases mem_singleton.mp hnew
    exact .inr ⟨rfl, result, rfl, hphase⟩

theorem flaggedFor_append {later : WorkloadsDir} {resolveNodeIdentity : Option (String → Option String)} {a b : ModelRun}
    (h : FlaggedFor resolveNodeIdentity (past ++ [⟨⟨.applyOne m, dir⟩, (later, answer)⟩]) a b) :
    FlaggedFor resolveNodeIdentity past a b ∨
      (a = m ∧ (∃ now, answer = .ok (collisionResult now m b)) ∧ portClaimant resolveNodeIdentity dir m = some b) := by
  obtain ⟨before, after, now, hmem, hclaimant⟩ := h
  rcases mem_append.mp hmem with hold | hnew
  · exact .inl ⟨before, after, now, hold, hclaimant⟩
  · cases mem_singleton.mp hnew
    exact .inr ⟨rfl, ⟨now, rfl⟩, hclaimant⟩

theorem Saved.flagged (hsaved : Saved m answer dir next) (henabled : m.spec.enabled = true)
    (hgateway : m.spec.gateway = false) (hanswer : answer =
      applyOne pass.serving.resolveNodeIdentity (pass.serving.applyAnswers m.name) dir m)
    (hclaimant : ∃ other, portClaimant pass.serving.resolveNodeIdentity dir m = some other) :
    (∃ flagged, runOf next m.name = some flagged ∧ flagged.portCollision = true) ∨
      (¬ pass.serving.hasClient m.name ∧ next = dir) := by
  obtain ⟨other, hother⟩ := hclaimant
  rw [applyOne_claimed hgateway henabled hother] at hanswer
  cases hclient : (pass.serving.applyAnswers m.name).client with
  | error thrown =>
    rw [hclient] at hanswer
    refine .inr ⟨fun hhas => ?_, hsaved.error thrown hanswer⟩
    have hboth : Except.error thrown = .ok () := hclient.symm.trans hhas
    cases hboth
  | ok client =>
    rw [hclient] at hanswer
    obtain ⟨b, hb, -, hstatus⟩ := hsaved.same henabled
    refine .inl ⟨b, hb, ?_⟩
    rw [ModelRun.portCollision, hstatus _ hanswer]
    rfl

variable (hclear : Clear pass start) (hsplit : pass.taken start = done ++ m :: rest)
  (h : Claimed pass start done past dir) (hsaved : Saved m answer dir next)
  (hanswer : answer = applyOne pass.serving.resolveNodeIdentity (pass.serving.applyAnswers m.name) dir m)

include hclear hsplit h hsaved hanswer

/-- Those before `m` that converged stay as they are; `m` converges if it finds no claimant. -/
theorem Claimed.step_converged {a : ModelRun}
    (hconverged : Converged (past ++ [⟨⟨.applyOne m, dir⟩, (dir, answer)⟩]) a) : a ∈ done ++ [m] ∧
    (∃ b, runOf next a.name = some b ∧ SameClaim a b ∧ b.spec.enabled = true ∧ b.portCollision = false) ∧
    ∀ b, runOf next b.name = some b → b.name ≠ a.name → b.spec.enabled = true → pass.collide a b = true →
      b.portCollision = true := by
  obtain ⟨hm, hdoneTaken, hnames, -⟩ := taken_split hclear.named hsplit
  rcases converged_append hconverged with hold | ⟨rfl, result, hresult, hphase⟩
  · obtain ⟨hdone, ⟨b, hb, hsame, henabled, hclaims⟩, hothers⟩ := h.converged a hold
    have hname := hnames a hdone
    refine ⟨mem_append_left _ hdone, ⟨b, ?_, hsame, henabled, hclaims⟩, fun c hc hne hcEnabled hcollide => ?_⟩
    · rw [runOf_congr (hsaved.others a.name hname)]
      exact hb
    by_cases hcm : c.name = m.name
    · rw [hcm] at hc
      have hmEnabled : m.spec.enabled = true := (hsaved.enabled c hc).symm.trans hcEnabled
      obtain ⟨c', hc', hsame', -⟩ := hsaved.same hmEnabled
      obtain rfl : c' = c := Option.some.inj (hc'.symm.trans hc)
      rw [hsame'.collide, Reconcile.collide_comm] at hcollide
      have hgateway : m.spec.gateway = false := by
        cases hgateway : m.spec.gateway with
        | false => rfl
        | true =>
          have hno := hclear.gateways m hm hgateway hmEnabled a (mem_of_taken (hdoneTaken a hdone)) hname
            (hsame.enabled.symm.trans henabled)
          rw [hcollide] at hno
          cases hno
      have hclaimant := portClaimant_ne_none pass m h.named (by rwa [hsame.name])
        (by rwa [hsame.name]) henabled hclaims (by rwa [hsame.collide])
      rcases hsaved.flagged hmEnabled hgateway hanswer hclaimant with ⟨flagged, hflagged, hpc⟩ | ⟨-, hsameDir⟩
      · obtain rfl : flagged = c' := Option.some.inj (hflagged.symm.trans hc)
        exact hpc
      refine hothers c' (by rw [hcm, ← hsameDir]; exact hc) hne hcEnabled ?_
      rw [hsame'.collide, Reconcile.collide_comm]
      exact hcollide
    · rw [runOf_congr (hsaved.others c.name hcm)] at hc
      exact hothers c hc hne hcEnabled hcollide
  · have hcases := applyOne_cases rfl (hanswer.symm.trans hresult)
    rcases hcases with ⟨-, hpending⟩ | ⟨-, hstopped⟩ | ⟨-, henabled, -, ⟨other, -, rfl⟩ | ⟨hnone, hclaims⟩⟩
    · simp [hphase] at hpending
    · simp [hphase] at hstopped
    · simp [collisionResult, stoppedStatus] at hphase
    obtain ⟨b, hb, hsame, hstatus⟩ := hsaved.same henabled
    refine ⟨by simp, ⟨b, hb, hsame, hsame.enabled.trans henabled, ?_⟩, fun c hc hne hcEnabled hcollide => ?_⟩
    · rw [ModelRun.portCollision, hstatus result hresult]
      exact hclaims
    · rw [runOf_congr (hsaved.others c.name hne)] at hc
      exact portClaimant_eq_none hnone ((mem_listWorkloads h.named).mpr hc) hne hcEnabled hcollide

theorem Claimed.step_flagged {a b : ModelRun}
    (hflagged : FlaggedFor pass.serving.resolveNodeIdentity (past ++ [⟨⟨.applyOne m, dir⟩, (dir, answer)⟩]) a b)
    (hrunning : a.running = true) : ∃ stored ∈ listWorkloads start, stored.name = b.name ∧ stored.running = true := by
  obtain ⟨hm, hdoneTaken, hnames, hbefore⟩ := taken_split hclear.named hsplit
  rcases flaggedFor_append hflagged with hold | ⟨rfl, ⟨now, hresult⟩, hclaimant⟩
  · exact h.flagged a b hold hrunning
  obtain ⟨hb, hname, hbEnabled, hclaims, hcollide⟩ := portClaimant_eq_some hclaimant
  have hstored := (mem_listWorkloads h.named).mp hb
  obtain ⟨b₀, hb₀, hsame⟩ := h.stored b hstored hbEnabled
  have hlisted : b₀ ∈ listWorkloads start := by rwa [mem_listWorkloads hclear.named, ← hsame.name]
  cases hbRunning : b₀.running with
  | true => exact ⟨b₀, hlisted, hsame.name.symm, hbRunning⟩
  | false =>
    exfalso
    have hb₀Enabled : b₀.spec.enabled = true := hsame.enabled.symm.trans hbEnabled
    have hb₀Collide : pass.collide a b₀ = true := by
      rw [← hsame.collide]
      exact hcollide
    obtain ⟨henabled, hclient⟩ : a.spec.enabled = true ∧ pass.serving.hasClient a.name := by
      rcases applyOne_cases rfl (hanswer.symm.trans hresult) with ⟨-, hphase⟩ | ⟨-, hphase⟩ | ⟨-, henabled, hclient, -⟩
      · simp [collisionResult, stoppedStatus] at hphase
      · simp [collisionResult, stoppedStatus] at hphase
      · exact ⟨henabled, hclient⟩
    have hunchanged : dir.get? b.name = start.get? b.name → b₀.portCollision = false := by
      intro hget
      rw [runOf_congr hget, hb₀] at hstored
      rw [Option.some.inj hstored]
      exact hclaims
    have hdecided := hclear.running a hm henabled hrunning hclient b₀ hlisted (by rwa [← hsame.name]) hb₀Enabled
      hb₀Collide hbRunning
    by_cases hdone : b₀ ∈ done
    · have hgateway : b₀.spec.gateway = false := by
        cases hgateway : b₀.spec.gateway with
        | false => rfl
        | true =>
          have hno := hclear.gateways b₀ (hdoneTaken b₀ hdone) hgateway hb₀Enabled a (mem_of_taken hm)
            (hnames b₀ hdone).symm henabled
          rw [Reconcile.collide_comm, hb₀Collide] at hno
          cases hno
      have hyielded := h.yielded b₀ hdone hb₀Enabled hgateway a (mem_of_taken hm) hnames henabled hrunning
        (by rwa [Reconcile.collide_comm])
      rw [← hsame.name] at hyielded
      rcases hyielded with ⟨flagged, hget, hpc⟩ | ⟨hnoClient, hget⟩
      · rw [hstored] at hget
        rw [← Option.some.inj hget, hclaims] at hpc
        cases hpc
      rcases hdecided with hpc | ⟨-, -, hbClient⟩
      · rw [hunchanged hget] at hpc
        cases hpc
      · exact hnoClient (hsame.name ▸ hbClient)
    have hget : dir.get? b.name = start.get? b.name := by
      refine h.kept b.name fun c hc heq => hdone ?_
      have hcb : c = b₀ := listWorkloads_name hclear.named (mem_of_taken (hdoneTaken c hc)) hlisted
        (heq.trans hsame.name)
      rwa [← hcb]
    rcases hdecided with hpc | ⟨htaken, hlt, -⟩
    · rw [hunchanged hget] at hpc
      cases hpc
    · exact hdone (hbefore b₀ htaken hlt)

theorem Claimed.step : Claimed pass start (done ++ [m]) (past ++ [⟨⟨.applyOne m, dir⟩, (dir, answer)⟩]) next := by
  obtain ⟨hm, -, hnames, -⟩ := taken_split hclear.named hsplit
  have hmStored : dir.get? m.name = start.get? m.name := h.kept m.name hnames
  refine ⟨hsaved.named, fun name hname => ?_, fun b hb henabled => ?_, fun a => h.step_converged hclear hsplit hsaved hanswer,
    fun a b => h.step_flagged hclear hsplit hsaved hanswer, fun b hb henabled hgateway a ha hnone haEnabled hrunning hcollide => ?_⟩
  · have hne : name ≠ m.name := fun heq => hname m (by simp) heq.symm
    rw [hsaved.others name hne]
    exact h.kept name fun a ha => hname a (mem_append_left _ ha)
  · by_cases hbm : b.name = m.name
    · rw [hbm] at hb ⊢
      obtain ⟨b', hb', hsame, -⟩ := hsaved.same ((hsaved.enabled b hb).symm.trans henabled)
      rw [hb] at hb'
      cases hb'
      exact ⟨m, (mem_listWorkloads hclear.named).mp (mem_of_taken hm), hsame⟩
    · rw [runOf_congr (hsaved.others b.name hbm)] at hb
      exact h.stored b hb henabled
  have hrest : ∀ c ∈ done, c.name ≠ a.name := fun c hc => hnone c (mem_append_left _ hc)
  rcases mem_append.mp hb with hdone | hlast
  · have hname := hnames b hdone
    rw [runOf_congr (hsaved.others b.name hname), hsaved.others b.name hname]
    exact h.yielded b hdone henabled hgateway a ha hrest haEnabled hrunning hcollide
  obtain rfl := mem_singleton.mp hlast
  have hclaimant := portClaimant_ne_none pass b h.named
    ((mem_listWorkloads h.named).mp (h.mem hclear.named ha hrest)) (hnone b (by simp)).symm haEnabled
    (portCollision_of_running hrunning) hcollide
  rcases hsaved.flagged henabled hgateway hanswer hclaimant with hflagged | ⟨hnoClient, rfl⟩
  · exact .inl hflagged
  · exact .inr ⟨hnoClient, hmStored⟩

end

section

variable {env : ProcessEnv} {dir : WorkloadsDir} {m : ModelRun}

theorem SameClaim.refl (a : ModelRun) : SameClaim a a := ⟨rfl, rfl, rfl, rfl⟩

/-- Nothing is written, since the apply failed or a disabled manifest does not load. -/
theorem Saved.of_unsaved (hnamed : WellNamed dir) (hm : runOf dir m.name = some m) {answer : Except Thrown ApplyResult}
    (hanswer : m.spec.enabled = true → ∀ result, answer ≠ .ok result) : Saved m answer dir dir where
  named := hnamed
  others _ _ := rfl
  enabled b hb := by
    rw [hm] at hb
    rw [Option.some.inj hb]
  same henabled := ⟨m, hm, .refl m, fun result hresult => absurd hresult (hanswer henabled result)⟩
  error _ _ := rfl

theorem loadWorkloadByName_of_runOf {loaded : ModelRun} (hm : runOf dir m.name = some m)
    (hload : loadWorkloadByName env m.name dir = some loaded) :
    loaded.name = m.name ∧ loaded.spec.enabled = m.spec.enabled ∧ modelRunAccepted loaded = true := by
  unfold runOf at hm
  unfold loadWorkloadByName at hload
  split at hm
  next stored hget =>
    rw [hget] at hload
    split at hm
    next haccepted =>
      cases hm
      obtain ⟨hsome, hok⟩ := Option.filter_eq_some_iff.mp hload
      have hname : isManifestName m.name = true := by
        unfold modelRunAccepted at haccepted
        simp only [Bool.and_eq_true] at haccepted
        exact haccepted.1.1.1.1.1.1.1.1.1.1
      cases hdeep : interpolateEnvRefsDeep env m with
      | error message =>
        rw [hdeep] at hsome
        cases hsome
      | ok result =>
        rw [hdeep] at hsome
        cases hsome
        obtain ⟨hsameName, henabled⟩ := interpolateEnvRefsDeep_name hname hdeep
        exact ⟨hsameName, henabled, hok⟩
    · cases hm
  · cases hm

theorem Saved.of_loaded (hnamed : WellNamed dir) (hm : runOf dir m.name = some m) {loaded : ModelRun}
    (hload : loadWorkloadByName env m.name dir = some loaded) {result : ApplyResult}
    (hsame : m.spec.enabled = true → loaded.spec.node = m.spec.node ∧ loaded.spec.endpoint = m.spec.endpoint) :
    Saved m (.ok result) dir (saveWorkload { loaded with status := some result.statusSection } dir) := by
  obtain ⟨hname, henabled, haccepted⟩ := loadWorkloadByName_of_runOf hm hload
  have hrun : runOf (saveWorkload { loaded with status := some result.statusSection } dir) m.name =
      some { loaded with status := some result.statusSection } := by
    rw [saveWorkload, runOf_set, if_pos hname.symm]
    exact if_pos haccepted
  refine ⟨hnamed.set rfl, fun name hne => ?_, fun b hb => ?_, fun hmEnabled => ?_, fun thrown herror => ?_⟩
  · rw [saveWorkload, OrderedMap.get?_set, if_neg]
    rw [hname]
    exact hne
  · rw [hrun] at hb
    rw [← Option.some.inj hb]
    exact henabled
  · obtain ⟨hnode, hendpoint⟩ := hsame hmEnabled
    exact ⟨_, hrun, ⟨hname, henabled, hnode, hendpoint⟩, fun other hother => by cases hother; rfl⟩
  · cases herror

end

section

variable {pass : Reconcile} {start dir : WorkloadsDir} {past : List PassWait} {own : Own}

theorem Serving.answer_dir (serving : Serving) (past : List PassWait) (e : Awaited WorkloadsDir Call) :
    (serving.answer past e).1 = e.shared := by
  obtain ⟨call, dir⟩ := e
  cases call <;> rfl

theorem reconcileModelRun_claimed (hclear : Clear pass start) {done rest : List ModelRun} {m : ModelRun}
    (hsplit : pass.taken start = done ++ m :: rest)
    (h : (∀ wait ∈ past, pass.serving.Serves wait) → Claimed pass start done past dir) :
    (reconcileModelRun pass.setup.env m).Holds (fun _ _ => True) (fun past _ dir _ =>
      (∀ wait ∈ past, pass.serving.Serves wait) → Claimed pass start (done ++ [m]) past dir) past dir own := by
  obtain ⟨hm, -, hnames, -⟩ := taken_split hclear.named hsplit
  have hlisted := (mem_listWorkloads hclear.named).mp (mem_of_taken hm)
  have hcurrent : ∀ {past dir}, Claimed pass start done past dir → runOf dir m.name = some m := by
    intro past dir h
    rw [runOf_congr (h.kept m.name hnames)]
    exact hlisted
  have hloads : ∀ {past dir}, Claimed pass start done past dir → m.spec.enabled = true →
      ∃ loaded, loadWorkloadByName pass.setup.env m.name dir = some loaded ∧ loaded.spec.node = m.spec.node ∧
        loaded.spec.endpoint = m.spec.endpoint := by
    intro past dir h henabled
    rw [loadWorkloadByName, h.kept m.name hnames]
    exact hclear.loads m hm henabled
  unfold reconcileModelRun
  rw [holds_bind, holds_getShared]
  dsimp only
  split
  next hmissing =>
    intro hserved
    have hhas := hcurrent (h hserved)
    unfold runOf at hhas
    simp only [OrderedMap.has, Bool.not_eq_true', Option.isSome_eq_false_iff, Option.isNone_iff_eq_none] at hmissing
    rw [hmissing] at hhas
    cases hhas
  · rw [holds_bind, holds_wait]
    rintro ⟨later, answer⟩
    refine ⟨trivial, ?_⟩
    have hserve : (∀ wait ∈ past ++ [⟨⟨.applyOne m, dir⟩, (later, answer)⟩], pass.serving.Serves wait) →
        Claimed pass start done past dir ∧ later = dir ∧
          answer = applyOne pass.serving.resolveNodeIdentity (pass.serving.applyAnswers m.name) dir m := by
      intro hserved
      obtain ⟨before, hreply⟩ := hserved _ (mem_append_right past (mem_singleton_self _))
      obtain ⟨hdir, hanswer⟩ := Prod.mk.inj hreply
      exact ⟨h fun wait hwait => hserved wait (mem_append_left _ hwait), hdir, hanswer⟩
    cases answer with
    | error thrown =>
      intro hserved
      obtain ⟨hclaimed, rfl, hanswer⟩ := hserve hserved
      exact hclaimed.step hclear hsplit (.of_unsaved hclaimed.named (hcurrent hclaimed) (by simp)) hanswer
    | ok result =>
      dsimp only
      rw [holds_bind, pushReport, holds_modifyOwn, holds_bind, holds_getShared]
      split
      next hmissing =>
        intro hserved
        obtain ⟨hclaimed, rfl, -⟩ := hserve hserved
        contradiction
      · split
        next hload =>
          intro hserved
          obtain ⟨hclaimed, rfl, hanswer⟩ := hserve hserved
          refine hclaimed.step hclear hsplit (.of_unsaved hclaimed.named (hcurrent hclaimed) fun henabled => ?_) hanswer
          obtain ⟨loaded, hsome, -⟩ := hloads hclaimed henabled
          rw [hload] at hsome
          cases hsome
        next loaded hload =>
          rw [holds_bind, holds_modifyShared, holds_pure]
          intro hserved
          obtain ⟨hclaimed, rfl, hanswer⟩ := hserve hserved
          refine hclaimed.step hclear hsplit (.of_loaded hclaimed.named (hcurrent hclaimed) hload fun henabled => ?_) hanswer
          obtain ⟨loaded', hsome, hsame⟩ := hloads hclaimed henabled
          rw [hload] at hsome
          cases hsome
          exact hsame

/-- The claims after the ModelRuns: those to ModelHosts come and go beside them. -/
structure PortsSettled (pass : Reconcile) (start : WorkloadsDir) (past : List PassWait) (dir : WorkloadsDir) : Prop where
  named : WellNamed dir
  hosts : ∀ name host, start.get? name = some (.modelHost host) → ∃ host, dir.get? name = some (.modelHost host)
  converged : ∀ a, Converged past a →
    (∃ b, runOf dir a.name = some b ∧ SameClaim a b ∧ b.spec.enabled = true ∧ b.portCollision = false) ∧
    ∀ b, runOf dir b.name = some b → b.name ≠ a.name → b.spec.enabled = true → pass.collide a b = true →
      b.portCollision = true
  flagged : ∀ a b, FlaggedFor pass.serving.resolveNodeIdentity past a b → a.running = true →
    ∃ stored ∈ listWorkloads start, stored.name = b.name ∧ stored.running = true

theorem Claimed.settled (hnamed : WellNamed start) (h : Claimed pass start (pass.taken start) past dir) :
    PortsSettled pass start past dir := by
  refine ⟨h.named, fun name host hhost => ⟨host, ?_⟩, fun a ha => (h.converged a ha).2, h.flagged⟩
  rw [h.kept name]
  · exact hhost
  rintro a ha rfl
  have hrun := (mem_listWorkloads hnamed).mp (mem_of_taken ha)
  unfold runOf at hrun
  rw [hhost] at hrun
  cases hrun

theorem PortsSettled.wait (h : PortsSettled pass start past dir) {call : Call} {name : String}
    (hcall : call.host? = some name) (reply : WorkloadsDir × Answer call) :
    PortsSettled pass start (past ++ [⟨⟨call, dir⟩, reply⟩]) dir := by
  have hold : ∀ {a : ModelRun} {shared later : WorkloadsDir} {answer : Except Thrown ApplyResult},
      (⟨⟨.applyOne a, shared⟩, (later, answer)⟩ : PassWait) ∈ past ++ [⟨⟨call, dir⟩, reply⟩] →
      (⟨⟨.applyOne a, shared⟩, (later, answer)⟩ : PassWait) ∈ past := by
    intro a shared later answer hmem
    rcases mem_append.mp hmem with hpast | hnew
    · exact hpast
    · cases mem_singleton.mp hnew
      cases hcall
  refine ⟨h.named, h.hosts, ?_, ?_⟩
  · rintro a ⟨result, ⟨shared, later, hmem⟩, hphase⟩
    exact h.converged a ⟨result, ⟨shared, later, hold hmem⟩, hphase⟩
  · rintro a b ⟨shared, later, now, hmem, hclaimant⟩
    exact h.flagged a b ⟨shared, later, now, hold hmem, hclaimant⟩

theorem PortsSettled.save (h : PortsSettled pass start past dir) {stored : ModelHostManifest} (host : ModelHostManifest)
    (hhost : start.get? stored.name = some (.modelHost host)) :
    PortsSettled pass start past (saveModelHost stored dir) := by
  have hrun : ∀ name, runOf (saveModelHost stored dir) name = runOf dir name := by
    intro name
    rw [saveModelHost, runOf_set]
    split
    next hname =>
      obtain ⟨other, hother⟩ := h.hosts stored.name host hhost
      unfold runOf
      rw [hname, hother]
    · rfl
  refine ⟨h.named.set rfl, fun name other hother => ?_, ?_, h.flagged⟩
  · rw [saveModelHost, OrderedMap.get?_set]
    split
    · exact ⟨stored, rfl⟩
    · exact h.hosts name other hother
  · simpa only [hrun] using h.converged

theorem get?_of_mem_listModelHosts (hnamed : WellNamed dir) {host : ModelHostManifest}
    (h : host ∈ listModelHosts dir) : dir.get? host.name = some (.modelHost host) := by
  unfold listModelHosts at h
  rw [mem_insertionSort, mem_filterMap] at h
  obtain ⟨document, hdocument, hsome⟩ := h
  obtain ⟨⟨name, stored⟩, hentry, rfl⟩ := mem_map.mp hdocument
  have hget := dir.get?_eq_some_iff.mpr hentry
  dsimp only at hsome
  split at hsome
  · cases hsome
    have hname : host.name = name := hnamed name _ hget _ rfl
    rw [hname, hget]
  · cases hsome

theorem reconcileModelHost_ports (hnamed : WellNamed start) {snapshot : ModelHostManifest}
    (hlisted : snapshot ∈ listModelHosts start) {setup : Setup}
    (h : (∀ wait ∈ past, pass.serving.Serves wait) → PortsSettled pass start past dir) :
    (reconcileModelHost setup snapshot).Holds (fun _ _ => True) (fun past _ dir _ =>
      (∀ wait ∈ past, pass.serving.Serves wait) → PortsSettled pass start past dir) past dir own := by
  -- The waits before the host stay in the history, so the manifest it reads has its name.
  let inv := fun (later : List PassWait) (dir : WorkloadsDir) =>
    (∀ wait ∈ past, wait ∈ later) ∧ ((∀ wait ∈ later, pass.serving.Serves wait) → PortsSettled pass start later dir)
  have hsteady : Steady (fun _ _ => True) inv (·.host? = some (currentManifest snapshot dir).name) := by
    refine ⟨fun later dir call reply hcall hinv => ⟨trivial, ?_, fun hserved => ?_⟩⟩
    · exact fun wait hwait => mem_append_left _ (hinv.1 wait hwait)
    have hsettled := hinv.2 fun wait hwait => hserved wait (mem_append_left _ hwait)
    obtain ⟨before, hreply⟩ := hserved _ (mem_append_right later (mem_singleton_self _))
    have hdir : reply.1 = dir := (congrArg Prod.fst hreply).trans (pass.serving.answer_dir before ⟨call, dir⟩)
    rw [hdir]
    exact hsettled.wait hcall reply
  have hkeeps : HostKeeps (fun _ _ => True) inv inv (currentManifest snapshot dir) := by
    refine ⟨hsteady, fun call hcall later dir' reply => hsteady.step later dir' call reply ?_, hsteady, ?_⟩
    · rcases hcall with rfl | rfl
      · rfl
      · rfl
    intro later dir' stored hname _ hinv
    refine ⟨hinv.1, fun hserved => ?_⟩
    have hbegun := h fun wait hwait => hserved wait (hinv.1 wait hwait)
    refine (hinv.2 hserved).save snapshot ?_
    rw [hname, currentManifest_name hbegun.named]
    exact get?_of_mem_listModelHosts hnamed hlisted
  exact reconcileModelHost_holds snapshot hkeeps ⟨fun _ hwait => hwait, h⟩ (fun _ _ hinv => hinv.2) (fun _ _ hinv => hinv.2)

theorem reconcileOnce_settled (hclear : Clear pass start) :
    (reconcileOnce pass.setup pass.filter).Holds (fun _ _ => True) (fun past _ dir _ =>
      (∀ wait ∈ past, pass.serving.Serves wait) → PortsSettled pass start past dir) [] start own := by
  have hadd : ∀ {task : Pass Nat} {past dir own} {post : List PassWait → WorkloadsDir → Prop} (errors : Nat),
      task.Holds (fun _ _ => True) (fun past _ dir _ => post past dir) past dir own →
      (do return errors + (← task) : Pass Nat).Holds (fun _ _ => True) (fun past _ dir _ => post past dir) past dir own := by
    intro task past dir own post errors htask
    apply htask.bind
    intro past value dir own h
    exact h
  have hstart : Claimed pass start [] [] start := by
    refine ⟨hclear.named, fun _ _ => rfl, fun b hb _ => ⟨b, hb, .refl b⟩, ?_, ?_, fun b hb => absurd hb not_mem_nil⟩
    · rintro a ⟨result, ⟨shared, later, hmem⟩, -⟩
      cases hmem
    · rintro a b ⟨shared, later, now, hmem, -⟩
      cases hmem
  rw [reconcileOnce, holds_bind, holds_getShared]
  apply Holds.bind (Holds.foldlM_done (fun done past _ dir _ =>
    (∀ wait ∈ past, pass.serving.Serves wait) → Claimed pass start done past dir) ?runs fun _ => hstart)
  case runs =>
    intro done m rest hsplit past errors dir own h
    exact hadd errors (reconcileModelRun_claimed hclear hsplit h)
  intro past errors dir own h
  apply Holds.foldlM (fun past _ dir _ =>
    (∀ wait ∈ past, pass.serving.Serves wait) → PortsSettled pass start past dir) ?_ fun hserved => (h hserved).settled hclear.named
  exact fun host hhost past errors dir own h => hadd errors (reconcileModelHost_ports hclear.named hhost h)

theorem Reconcile.trace_serves (pass : Reconcile) (start : WorkloadsDir) :
    ∀ wait ∈ pass.trace start, pass.serving.Serves wait := by
  unfold Reconcile.trace Reconcile.result
  apply Prog.answeredBy_events
  · exact fun past e => ⟨past, rfl⟩
  · exact fun wait hwait => absurd hwait not_mem_nil

theorem Clear.portsKept (hclear : Clear pass start) : PortsKept pass start := by
  have hruns := Prog.answeredBy_nil_runs pass.serving.answer (reconcileOnce pass.setup pass.filter start pass.own)
  have hsettled : PortsSettled pass start (pass.trace start) (pass.finish start) :=
    ((reconcileOnce_settled hclear).sound hruns).2 (pass.trace_serves start)
  refine ⟨fun a b ha hb hne => ?_, fun a b ha hb hne henabled hcollide => ?_, hsettled.flagged⟩
  · obtain ⟨-, hothers⟩ := hsettled.converged a ha
    obtain ⟨⟨stored, hstored, hsame, henabled, hclaims⟩, -⟩ := hsettled.converged b hb
    cases hcollide : pass.collide a b with
    | false => rfl
    | true =>
      have hflagged := hothers stored (by rwa [hsame.name]) (by rw [hsame.name]; exact hne.symm) henabled
        (by rwa [hsame.collide])
      rw [hclaims] at hflagged
      cases hflagged
  · exact (hsettled.converged a ha).2 b ((mem_listWorkloads hsettled.named).mp hb) hne henabled hcollide

end

/-- What the store goes through: the passes of the reconciler, the applies of a manifest, which save it
unless they fail, and those of `enable` and `disable`, which leave its status alone. -/
inductive ClaimStep where
  | pass (pass : Reconcile)
  | apply (resolveNodeIdentity : Option (String → Option String)) (answers : ApplyAnswers) (manifest : ModelRun)
  | setEnabled (env : ProcessEnv) (resolveNodeIdentity : Option (String → Option String)) (answers : ApplyAnswers)
      (name : String) (enabled : Bool)

def ModelRun.setEnabled (manifest : ModelRun) (enabled : Bool) : ModelRun :=
  { manifest with spec := { manifest.spec with enabled } }

def applied (resolveNodeIdentity : Option (String → Option String)) (answers : ApplyAnswers) (dir : WorkloadsDir)
    (manifest : ModelRun) : Option ApplyResult :=
  (applyOne resolveNodeIdentity answers dir manifest).toOption.filter fun result => result.error.all (· = "")

def claimStep (dir : WorkloadsDir) : ClaimStep → Option WorkloadsDir
  | .pass pass => some (pass.finish dir)
  | .apply resolveNodeIdentity answers manifest =>
    some <|
      match (applied resolveNodeIdentity answers dir manifest).filter fun _ => modelRunAccepted manifest with
      | some result => saveWorkload { manifest with status := some result.statusSection } dir
      | none => dir
  | .setEnabled env resolveNodeIdentity answers name enabled =>
    some <|
      match loadWorkloadByName env name dir with
      | none => dir
      | some manifest =>
        if enabled && (applied resolveNodeIdentity answers dir (manifest.setEnabled true)).isNone then dir
        else saveWorkload (manifest.setEnabled enabled) dir

/-- The apply starts or keeps a server only where all that it collides with are flagged. -/
def AppliesAlone (resolveNodeIdentity : Option (String → Option String)) (answers : ApplyAnswers) (dir : WorkloadsDir)
    (manifest : ModelRun) : Prop :=
  ∀ result, applyServer resolveNodeIdentity answers dir manifest = .ok result →
    result.statusSection.phase = "Running" → ∀ other ∈ listWorkloads dir, other.name ≠ manifest.name →
      other.spec.enabled = true → collide resolveNodeIdentity manifest other = true → other.portCollision = true

theorem applyServer_alone (resolveNodeIdentity : Option (String → Option String)) (answers : ApplyAnswers)
    (dir : WorkloadsDir) (manifest : ModelRun) : AppliesAlone resolveNodeIdentity answers dir manifest := by
  intro result hresult hphase other hother hname henabled hcollide
  let server := { manifest with spec := { manifest.spec with gateway := false } }
  have hsame : applyOne resolveNodeIdentity { answers with gateway := none } dir server = .ok result := by
    rw [applyOne_of_server rfl]
    exact hresult
  rcases applyOne_cases rfl hsame with ⟨hgateway, -⟩ | ⟨-, hstopped⟩ | ⟨-, -, -, ⟨claimant, -, rfl⟩ | ⟨hnone, -⟩⟩
  · cases hgateway
  · simp [hphase] at hstopped
  · simp [collisionResult, stoppedStatus] at hphase
  · exact portClaimant_eq_none hnone hother hname henabled hcollide

namespace ClaimStep

def Kept (dir : WorkloadsDir) : ClaimStep → Prop
  | .pass reconcile => PortsKept reconcile dir
  | .apply resolveNodeIdentity answers manifest => AppliesAlone resolveNodeIdentity answers dir manifest
  | .setEnabled env resolveNodeIdentity answers name enabled =>
    ∀ manifest, loadWorkloadByName env name dir = some manifest →
      AppliesAlone resolveNodeIdentity answers dir (manifest.setEnabled enabled)

def Begins (dir : WorkloadsDir) : ClaimStep → Prop
  | .pass reconcile => Clear reconcile dir
  | .apply _ _ _ | .setEnabled _ _ _ _ _ => True

end ClaimStep

/-- Over every sequence of passes and applies, each pass and apply keeps the claims to a port, when each
pass begins where nothing can take the port from a workload that runs. -/
theorem portClaims_kept {dir : WorkloadsDir} {steps : List ClaimStep} (h : Along claimStep ClaimStep.Begins dir steps) :
    Along claimStep ClaimStep.Kept dir steps := by
  apply h.imp
  intro dir step hbegins
  cases step with
  | pass pass => exact hbegins.portsKept
  | apply resolveNodeIdentity answers manifest => exact applyServer_alone resolveNodeIdentity answers dir manifest
  | setEnabled env resolveNodeIdentity answers name enabled => exact fun manifest _ => applyServer_alone _ _ _ _

namespace sample

def onPort (name : String) (status : Option ModelRunStatus) : ModelRun where
  name := name
  spec :=
    { node := "gpu1"
      target := { value := "llama-7b.gguf" }
      endpoint := some { host := some "0.0.0.0", port := some 8181 }
      allowExternalBind := true }
  status := status

def alpha : ModelRun := onPort "alpha" (some (runningStatus "" (some 7) "" .started []))

def store (beta : Option ModelRunStatus) : WorkloadsDir :=
  saveWorkload (onPort "beta" beta) (saveWorkload alpha .empty)

/-- The server of `alpha` is up as its manifest wants it. -/
def serving : Serving where
  resolveNodeIdentity := none
  answers name :=
    { status := .ok { up := name = "alpha", rel := some "llama-7b.gguf", host := some "0.0.0.0", port := some 8181 } }
  others _ := unanswered

def reconcile : Reconcile where
  setup := ⟨fun _ => none, fun _ => none⟩
  filter _ := true
  serving := serving
  own := .empty

def flagged : ModelRunStatus := (collisionResult "" (onPort "beta" none) alpha).statusSection

/-- The pass finds the port of `alpha` claimed by `beta`. -/
def claimed (wait : PassWait) : Bool :=
  match wait.call.call with
  | .applyOne m => m = alpha && portClaimant none wait.call.shared m = some (onPort "beta" none)
  | _ => false

def runs : PassWait → Bool
  | ⟨⟨.applyOne m, _⟩, (_, .ok result)⟩ => m = alpha && result.statusSection.phase = "Running"
  | _ => false

end sample

/-- A pass flags a workload that runs, for one with the same port that was just added. -/
theorem running_workload_flagged :
    ¬ ∀ (dir : WorkloadsDir) (steps : List ClaimStep), Along claimStep ClaimStep.Kept dir steps := by
  intro hclaim
  have hkept : PortsKept sample.reconcile (sample.store none) := (hclaim (sample.store none) [.pass sample.reconcile]).1
  have hany : (sample.reconcile.trace (sample.store none)).any sample.claimed = true := by
    decide +kernel
  obtain ⟨⟨⟨call, dir⟩, reply⟩, hwait, htest⟩ := any_eq_true.mp hany
  cases call with
  | applyOne m =>
    simp only [sample.claimed, Bool.and_eq_true, decide_eq_true_eq] at htest
    obtain ⟨rfl, hclaimant⟩ := htest
    obtain ⟨past, hreply⟩ := sample.reconcile.trace_serves (sample.store none) _ hwait
    have hresult : reply = (dir, .ok (collisionResult "" sample.alpha (sample.onPort "beta" none))) :=
      hreply.trans (congrArg (Prod.mk dir) (applyOne_claimed rfl rfl hclaimant))
    rw [hresult] at hwait
    obtain ⟨stored, hstored, hname, hrunning⟩ := hkept.running _ _ ⟨dir, dir, "", hwait, hclaimant⟩ rfl
    have hnone : ∀ stored ∈ listWorkloads (sample.store none), stored.name = "beta" → stored.running = false := by
      decide +kernel
    rw [hnone stored hstored hname] at hrunning
    cases hrunning
  | _ => cases htest

/-- The workload that runs keeps its port from one that was flagged before. -/
theorem portClaims_kept_flagged :
    Converged (sample.reconcile.trace (sample.store (some sample.flagged))) sample.alpha ∧
    Along claimStep ClaimStep.Kept (sample.store (some sample.flagged)) [.pass sample.reconcile] := by
  have hlisted : listWorkloads (sample.store (some sample.flagged)) =
      [sample.alpha, sample.onPort "beta" (some sample.flagged)] := by
    decide +kernel
  have hmem : ∀ a ∈ listWorkloads (sample.store (some sample.flagged)),
      a = sample.alpha ∨ a = sample.onPort "beta" (some sample.flagged) := by
    intro a ha
    rw [hlisted] at ha
    simpa using ha
  have hclear : Clear sample.reconcile (sample.store (some sample.flagged)) := by
    refine ⟨wellNamed_of_entries (by decide +kernel), fun a ha _ => ?_, fun a ha hgateway => ?_,
      fun a ha _ hrunning _ b hb hname _ _ _ => ?_⟩
    · have hload : ∀ run ∈ listWorkloads (sample.store (some sample.flagged)),
          loadWorkloadByName (fun _ => none) run.name (sample.store (some sample.flagged)) = some run := by
        decide +kernel
      exact ⟨a, hload a (mem_of_taken ha), rfl, rfl⟩
    · rcases hmem a (mem_of_taken ha) with rfl | rfl
      · cases hgateway
      · cases hgateway
    rcases hmem a (mem_of_taken ha) with rfl | rfl
    · rcases hmem b hb with rfl | rfl
      · exact absurd rfl hname
      · exact .inl (by decide +kernel)
    · exact absurd hrunning (by decide +kernel)
  have hany : (sample.reconcile.trace (sample.store (some sample.flagged))).any sample.runs = true := by
    decide +kernel
  obtain ⟨wait, hwait, htest⟩ := any_eq_true.mp hany
  refine ⟨?_, portClaims_kept ⟨hclear, fun _ _ => trivial⟩⟩
  unfold sample.runs at htest
  split at htest
  next m dir later result =>
    simp only [Bool.and_eq_true, decide_eq_true_eq] at htest
    obtain ⟨rfl, hphase⟩ := htest
    exact ⟨result, ⟨dir, later, hwait⟩, hphase⟩
  · cases htest

end llamactl.workload
