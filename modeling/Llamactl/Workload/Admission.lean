import Llamactl.Js.Objects
import Llamactl.Workload.ApplyOne

open collections js List

namespace llamactl.workload

open modelhost

/-! `residency/admission.ts` and `admission.ts`: a workload is admitted to a node while the memory that is declared there
stays within the node's budget. -/

structure AdmissionReservation where
  name : String
  expectedMemoryGiB : ℚ
  deriving DecidableEq

def MEMORY_BUDGET_HEADROOM_RATIO : ℚ := 3 / 4

def capacityBudgetGiB (memBytes : ℚ) : ℚ := roundDouble (memBytes / 1024 ^ 3 * MEMORY_BUDGET_HEADROOM_RATIO)

def isFiniteBudgetGiB (budget : Option ℚ) : Bool := budget.any (0 ≤ ·)

def sumReservationGiB (reservations : List AdmissionReservation) : ℚ :=
  reservations.foldl (fun sum reservation => roundDouble (sum + max 0 reservation.expectedMemoryGiB)) 0

inductive FiniteBudgetAdmission where
  | ok (reservedAfterGiB : ℚ) (budgetGiB : Option ℚ)
  | invalidReservation (invalid : List AdmissionReservation)
  | unknownBudget (reservedAfterGiB : ℚ)
  | overBudget (reservedAfterGiB budgetGiB : ℚ) (contributors : List AdmissionReservation)

def isInvalidReservationQuantity (value : ℚ) : Bool := value < 0

def contributors (living : List AdmissionReservation) (incoming : AdmissionReservation) : List AdmissionReservation :=
  (living ++ [incoming]).filter fun reservation => 0 < reservation.expectedMemoryGiB

def admitAgainstFiniteBudget (budgetGiB : Option ℚ) (living : List AdmissionReservation) (incoming : AdmissionReservation)
    (forceAdmit : Bool) : FiniteBudgetAdmission :=
  let invalid := (living ++ [incoming]).filter fun reservation => isInvalidReservationQuantity reservation.expectedMemoryGiB
  if invalid ≠ [] then .invalidReservation invalid
  else
    let reservedAfterGiB := sumReservationGiB (contributors living incoming)
    if forceAdmit || reservedAfterGiB = 0 then
      .ok reservedAfterGiB (if isFiniteBudgetGiB budgetGiB then budgetGiB else none)
    else
      match budgetGiB with
      | none => .unknownBudget reservedAfterGiB
      | some budget =>
        if !isFiniteBudgetGiB (some budget) then .unknownBudget reservedAfterGiB
        else if budget < reservedAfterGiB then .overBudget reservedAfterGiB budget (contributors living incoming)
        else .ok reservedAfterGiB (some budget)

/-- `value.toFixed(1)` -/
def toFixed1 (value : ℚ) : String :=
  let tenths := ⌊value * 10 + 1 / 2⌋.toNat
  s!"{tenths / 10}.{tenths % 10}"

def expectedMemory (manifest : ModelRun) : ℚ := manifest.spec.resources.join.getD 0

def reservationOf (manifest : ModelRun) : AdmissionReservation := ⟨manifest.name, expectedMemory manifest⟩

section

variable (nodeName : String) (supportsForceAdmit : Bool)

def formatAdmissionBreakdown (budget : ℚ) (incoming : AdmissionReservation) (living : List AdmissionReservation)
    (reservedAfter : ℚ) : String :=
  let item := fun reservation : AdmissionReservation =>
    let memory := toFixed1 reservation.expectedMemoryGiB
    s!"'{reservation.name}' {memory} GiB"
  let livingDesc := if living = [] then "(none)" else String.intercalate ", " (living.map item)
  let levers :=
    if supportsForceAdmit then
      "the llamactl.io/force-admit annotation (set by apply --force) is the explicit legacy override that admits past this budget; free capacity with --evict <name> or raise the node budget (NodeRun spec.budget.memoryGiB, default 75% of total RAM)"
    else
      "free capacity by removing or disabling other workloads on this node, or raise the node budget (NodeRun spec.budget.memoryGiB, default 75% of total RAM)"
  let reserved := toFixed1 reservedAfter
  let memory := toFixed1 incoming.expectedMemoryGiB
  let total := toFixed1 budget
  String.intercalate ". "
    [s!"node '{nodeName}' would reserve {reserved} GiB after adding '{incoming.name}' ({memory} GiB) to existing: {livingDesc}",
     s!"Budget is {total} GiB", levers]

/-- `String(value)` -/
def numberText (value : ℚ) : String :=
  (if value < 0 then "-" else "") ++ String.ofList ((decimalText |value|).map Char.ofNat)

def formatInvalidReservationReason (invalid : List AdmissionReservation) : String :=
  let item := fun reservation : AdmissionReservation =>
    let memory := numberText reservation.expectedMemoryGiB
    s!"'{reservation.name}' ({memory})"
  let names := String.intercalate ", " (invalid.map item)
  let forceNote :=
    if supportsForceAdmit then
      " The llamactl.io/force-admit annotation overrides a finite budget, it does not launder an invalid quantity"
    else ""
  String.intercalate ". "
    [s!"node '{nodeName}' has invalid reservation quantities: {names}",
     "expectedMemoryGiB must be a finite non-negative number; refusing to sum NaN or infinities into the accounting",
     s!"Correct spec.resources.expectedMemoryGiB in the named manifests.{forceNote}"]

def formatUnknownBudgetReason (incoming : AdmissionReservation) (reservedAfter : ℚ) : String :=
  let memory := toFixed1 incoming.expectedMemoryGiB
  let reserved := toFixed1 reservedAfter
  String.intercalate ". "
    ([s!"node '{nodeName}' memory budget is unknown; refusing to charge '{incoming.name}' ({memory} GiB) against it (declared reservations after this workload: {reserved} GiB)",
      s!"Declare a budget with NodeRun spec.budget.memoryGiB, or make the target node's reported memory reachable (llamactl node test {nodeName})"] ++
      if supportsForceAdmit then ["The llamactl.io/force-admit annotation is the explicit escape hatch"] else [])

end

/-- What `computeNodeBudget` decides: the reservation, or the refusal. -/
abbrev NodeBudgetDecision := Except (AdmissionKind × String) (ℚ × Option ℚ)

/-- The manifests of a node that count, by a test for its name. -/
def livingOn (isNode : String → Bool) (manifests : List ModelRun) : List ModelRun :=
  manifests.filter fun manifest => isNode manifest.spec.node && manifest.spec.enabled

def computeNodeBudget (nodeName : String) (nodeBudgetGiB : Option ℚ) (livingManifests : List ModelRun) (incoming : ModelRun)
    (forceAdmit supportsForceAdmit : Bool) (isNode : String → Bool) : NodeBudgetDecision :=
  let rawLiving := (livingOn isNode livingManifests).map reservationOf
  match admitAgainstFiniteBudget nodeBudgetGiB rawLiving (reservationOf incoming) forceAdmit with
  | .ok reservedAfter budget => .ok (reservedAfter, budget)
  | .invalidReservation invalid =>
    .error (.invalidReservation, formatInvalidReservationReason nodeName supportsForceAdmit invalid)
  | .unknownBudget reservedAfter =>
    .error (.unknownBudget, formatUnknownBudgetReason nodeName supportsForceAdmit (reservationOf incoming) reservedAfter)
  | .overBudget reservedAfter budget _ =>
    let livingItems := rawLiving.filter fun reservation => 0 < reservation.expectedMemoryGiB
    .error (.overBudget,
      formatAdmissionBreakdown nodeName supportsForceAdmit budget (reservationOf incoming) livingItems reservedAfter)

/-- What the file system answers beside the documents. -/
structure Disk where
  /-- the bytes of a model below the models directory, `none` where it cannot be read -/
  pathSizeBytes : String → Option Nat
  /-- the message for a workload whose file lies outside the directory -/
  escapes : String → Option String
  parseError : Document → String

section

variable (disk : Disk)

def estimateModelHostMemoryGiB (manifest : ModelHostManifest) : Option ℚ :=
  match manifest.spec.resources.join with
  | some declared => some declared
  | none =>
    if manifest.spec.hostedModel.rel = "" then none
    else (disk.pathSizeBytes manifest.spec.hostedModel.rel).map fun size => roundDouble ((size : ℚ) * 2) / 1024 ^ 3

def restartPolicyText : RestartPolicy → String
  | .always => "Always"
  | .onFailure => "OnFailure"
  | .never => "Never"

def projectModelHostToModelRun (manifest : ModelHostManifest) : ModelRun where
  name := manifest.name
  labels := manifest.labels.getD []
  spec :=
    { node := manifest.spec.node
      enabled := manifest.spec.enabled
      target := { value := manifest.spec.hostedModel.rel }
      extraArgs := manifest.spec.extraArgs
      restartPolicy := restartPolicyText manifest.spec.restartPolicy
      resources := (estimateModelHostMemoryGiB disk manifest).map some
      timeoutSeconds := manifest.spec.timeoutSeconds
      endpoint := some { host := some manifest.spec.endpoint.host, port := some manifest.spec.endpoint.port }
      binary := some manifest.spec.binary }

def admissionEntry : Document → Option ModelRun
  | .modelRun manifest => if modelRunAccepted manifest then some manifest else none
  | .modelHost manifest => some (projectModelHostToModelRun disk manifest)
  | _ => none

def listAnyWorkloadsForAdmission (dir : WorkloadsDir) : List ModelRun :=
  (dir.values.filterMap (admissionEntry disk)).insertionSort (·.name ≤ ·.name)

end

/-- What is known of a node's memory: the budget of its NodeRun, the controller's own memory and the memory the node
reports. -/
structure NodeMemory where
  explicit : Option ℚ
  controllerBytes : ℚ
  reportedBytes : Option ℚ

def resolveAdmissionBudgetGiB (memory : NodeMemory) (nodeName : String) (hasDeclaredReservations : Bool) : Option ℚ :=
  match memory.explicit with
  | some budget => some budget
  | none =>
    if nodeName = localNodeId then some (capacityBudgetGiB memory.controllerBytes)
    else if !hasDeclaredReservations then none
    else (memory.reportedBytes.filter (0 < ·)).map capacityBudgetGiB

def resolveModelHostBudgetGiB (memory : NodeMemory) (nodeName : String) : ℚ :=
  match memory.explicit with
  | some budget => budget
  | none =>
    if nodeName = localNodeId then capacityBudgetGiB memory.controllerBytes
    else
      match memory.reportedBytes.filter (0 < ·) with
      | some bytes => capacityBudgetGiB bytes
      | none => capacityBudgetGiB memory.controllerBytes

/-- The refusal of the admission, if it refuses. Nodes are told apart by name here. -/
def admitModelHostBudget (disk : Disk) (dir : WorkloadsDir) (manifest : ModelHostManifest)
    (budget : ℚ) : Option String :=
  let livingManifests := (listAnyWorkloadsForAdmission disk dir).filter fun other =>
    other.name ≠ manifest.name && other.spec.node = manifest.spec.node && other.spec.enabled
  let projected := projectModelHostToModelRun disk manifest
  let incoming := { projected with labels := [], spec := { projected.spec with endpoint := none, binary := none } }
  match computeNodeBudget manifest.spec.node (some budget) livingManifests incoming false false
    fun other => other = manifest.spec.node with
  | .ok _ => none
  | .error (_, reason) => some reason

section

variable (resolveNodeIdentity : Option (String → Option String)) (disk : Disk)

inductive EvictCheck where
  | verified
  | skip
  | refused (why : String) (reason : EvictReason)

def checkEvictTarget (dir : WorkloadsDir) (manifest : ModelRun) (target : String) : EvictCheck :=
  let unreadable := fun message : String =>
    EvictCheck.refused s!"it could not be read to confirm its kind ({message})" .kindUnsupported
  let misnamed := fun name : String =>
    EvictCheck.refused s!"the canonical '{target}.yaml' manifest declares metadata.name '{name}'" .ambiguousIdentity
  let claims := (listAnyWorkloadsForAdmission disk dir).countP fun other => other.name = target
  if 1 < claims then
    .refused "more than one stored manifest claims this name, so the freed capacity cannot be attributed to a single victim"
      .ambiguousIdentity
  else
    match disk.escapes target with
    | some message => unreadable message
    | none =>
      match dir.get? target with
      | none => .skip
      | some (.modelRun loaded) =>
        if !modelRunAccepted loaded then unreadable (disk.parseError (.modelRun loaded))
        else if loaded.name ≠ target then misnamed loaded.name
        else if !sameNode resolveNodeIdentity manifest.spec.node loaded.spec.node then
          .refused s!"it is owned by node '{loaded.spec.node}', which is not verifiably the incoming manifest's node '{manifest.spec.node}'"
            .nodeUnverified
        else .verified
      | some (.modelHost loaded) =>
        if loaded.name ≠ target then misnamed loaded.name
        else .refused "it is a ModelHost, which this path cannot stop or account for" .kindUnsupported
      | some document => unreadable (disk.parseError document)

/-- The targets that free capacity, or the first refusal. -/
def authorizeEvictTargets (dir : WorkloadsDir) (manifest : ModelRun) :
    List String → Except (String × String × EvictReason) (List String)
  | [] => .ok []
  | target :: rest =>
    match checkEvictTarget resolveNodeIdentity disk dir manifest target with
    | .refused why reason => .error (target, why, reason)
    | .skip => authorizeEvictTargets dir manifest rest
    | .verified => (authorizeEvictTargets dir manifest rest).map (target :: ·)

def livingFor (dir : WorkloadsDir) (manifest : ModelRun) (verified : List String) : List ModelRun :=
  (listAnyWorkloadsForAdmission disk dir).filter fun other =>
    other.name ≠ manifest.name && sameNode resolveNodeIdentity manifest.spec.node other.spec.node && other.spec.enabled &&
      other.name ∉ verified

/-- What the admission of a ModelRun decides, with the targets it has credited. -/
def admitServerBudget (memory : NodeMemory) (dir : WorkloadsDir) (manifest : ModelRun) : Admission × List String :=
  match authorizeEvictTargets resolveNodeIdentity disk dir manifest (parseEvictTargets manifest) with
  | .error (target, why, reason) => (.evictRefused target why reason, [])
  | .ok verified =>
    let living := livingFor resolveNodeIdentity disk dir manifest verified
    let hasDeclaredReservations := 0 < expectedMemory manifest || living.any fun other => 0 < expectedMemory other
    let budget := resolveAdmissionBudgetGiB memory manifest.spec.node hasDeclaredReservations
    let forceAdmit := manifest.annotations.lookup "llamactl.io/force-admit" = some "true"
    match computeNodeBudget manifest.spec.node budget living manifest forceAdmit true
      (sameNode resolveNodeIdentity manifest.spec.node) with
    | .error (kind, reason) => (.refused kind reason, [])
    | .ok (reservedAfter, charged) =>
      let reserved := toFixed1 reservedAfter
      let total := (charged.map toFixed1).getD "unknown"
      (.admitted s!"node reserves {reserved} / {total} GiB", verified)

end

section

variable {disk : Disk} {dir : WorkloadsDir} {budget : ℚ}

/-- The reservations an apply is charged with are summed up without rounding. -/
def Exact (living : List ModelRun) (incoming : ModelRun) : Prop :=
  sumReservationGiB (contributors (living.map reservationOf) (reservationOf incoming)) =
    ((contributors (living.map reservationOf) (reservationOf incoming)).map AdmissionReservation.expectedMemoryGiB).sum

/-- What counts nothing can be left out of a sum of amounts that are not negative. -/
theorem sum_contributors {reservations : List AdmissionReservation}
    (hnonneg : ∀ reservation ∈ reservations, 0 ≤ reservation.expectedMemoryGiB) :
    ((reservations.filter fun reservation => 0 < reservation.expectedMemoryGiB).map
      AdmissionReservation.expectedMemoryGiB).sum = (reservations.map AdmissionReservation.expectedMemoryGiB).sum := by
  induction reservations with
  | nil => rfl
  | cons first rest ih =>
    have hrest := ih fun reservation hmem => hnonneg reservation (mem_cons_of_mem _ hmem)
    by_cases hpos : 0 < first.expectedMemoryGiB
    · simp [hpos, hrest]
    · have hzero : first.expectedMemoryGiB = 0 := le_antisymm (not_lt.mp hpos) (hnonneg first mem_cons_self)
      simp [hrest, hzero]

theorem admitAgainstFiniteBudget_ok {budgetGiB charged : Option ℚ} {living : List AdmissionReservation}
    {incoming : AdmissionReservation} {reserved : ℚ}
    (hok : admitAgainstFiniteBudget budgetGiB living incoming false = .ok reserved charged) :
    (∀ reservation ∈ living ++ [incoming], 0 ≤ reservation.expectedMemoryGiB) ∧
      (sumReservationGiB (contributors living incoming) = 0 ∨
        ∃ budget, budgetGiB = some budget ∧ sumReservationGiB (contributors living incoming) ≤ budget) := by
  unfold admitAgainstFiniteBudget at hok
  dsimp only at hok
  split at hok
  · cases hok
  next hvalid =>
    constructor
    · intro reservation hmem
      by_contra hneg
      apply hvalid
      apply ne_nil_of_mem (a := reservation)
      exact mem_filter.mpr ⟨hmem, by simpa [isInvalidReservationQuantity] using hneg⟩
    split at hok
    next hzero => exact .inl (by simpa using hzero)
    · split at hok
      · cases hok
      next budget =>
        split at hok
        · cases hok
        split at hok
        · cases hok
        next hwithin => exact .inr ⟨budget, rfl, not_lt.mp hwithin⟩

theorem computeNodeBudget_within {nodeName : String} {nodeBudgetGiB : Option ℚ} {manifests : List ModelRun}
    {incoming : ModelRun} {supportsForceAdmit : Bool} {isNode : String → Bool} {admitted : ℚ × Option ℚ}
    (hok : computeNodeBudget nodeName nodeBudgetGiB manifests incoming false supportsForceAdmit isNode = .ok admitted)
    (hbudget : nodeBudgetGiB.all (· = budget) = true) (hpos : 0 ≤ budget)
    (hexact : Exact (livingOn isNode manifests) incoming) :
    ((livingOn isNode manifests).map expectedMemory).sum + expectedMemory incoming ≤ budget ∧
      ∀ other ∈ livingOn isNode manifests, 0 ≤ expectedMemory other := by
  unfold computeNodeBudget at hok
  dsimp only at hok
  split at hok
  case h_1 reserved charged hadmitted =>
    obtain ⟨hnonneg, hsum⟩ := admitAgainstFiniteBudget_ok hadmitted
    have htotal : ((contributors ((livingOn isNode manifests).map reservationOf) (reservationOf incoming)).map
        AdmissionReservation.expectedMemoryGiB).sum =
        ((livingOn isNode manifests).map expectedMemory).sum + expectedMemory incoming := by
      unfold contributors
      rw [sum_contributors hnonneg]
      simp [reservationOf, Function.comp_def]
    rw [hexact, htotal] at hsum
    constructor
    · obtain hzero | ⟨resolved, hresolved, hle⟩ := hsum
      · rw [hzero]
        exact hpos
      rw [hresolved] at hbudget
      have heq : resolved = budget := by simpa using hbudget
      exact heq ▸ hle
    · intro other hmem
      exact hnonneg (reservationOf other) (mem_append_left _ (mem_map_of_mem hmem))
  all_goals cases hok

/-- What a document is charged with among the entries that pass a test. -/
def charge (disk : Disk) (test : ModelRun → Bool) (document : Document) : ℚ :=
  match admissionEntry disk document with
  | some entry => if test entry then expectedMemory entry else 0
  | none => 0

theorem sum_living (test : ModelRun → Bool) :
    (((listAnyWorkloadsForAdmission disk dir).filter test).map expectedMemory).sum = (dir.values.map (charge disk test)).sum := by
  have hperm := ((perm_insertionSort (·.name ≤ ·.name) (dir.values.filterMap (admissionEntry disk))).filter test).map
    expectedMemory
  rw [listAnyWorkloadsForAdmission, hperm.sum_eq]
  induction dir.values with
  | nil => rfl
  | cons document rest ih =>
    cases hentry : admissionEntry disk document with
    | none => simpa [hentry, charge] using ih
    | some entry =>
      by_cases htest : test entry = true
      · simp [hentry, charge, htest, ih]
      · simp [hentry, charge, htest, ih]

theorem expectedMemory_project (disk : Disk) (manifest : ModelHostManifest) :
    expectedMemory (projectModelHostToModelRun disk manifest) = (estimateModelHostMemoryGiB disk manifest).getD 0 := by
  unfold expectedMemory projectModelHostToModelRun
  cases estimateModelHostMemoryGiB disk manifest <;> rfl

theorem declared_le_estimate (disk : Disk) (manifest : ModelHostManifest) :
    manifest.spec.resources.join.getD 0 ≤ (estimateModelHostMemoryGiB disk manifest).getD 0 := by
  unfold estimateModelHostMemoryGiB
  cases manifest.spec.resources.join with
  | some memory => exact le_refl _
  | none =>
    dsimp only
    split
    · exact le_refl _
    cases disk.pathSizeBytes manifest.spec.hostedModel.rel with
    | none => exact le_refl _
    | some size =>
      have hround : (0 : ℚ) ≤ roundDouble ((size : ℚ) * 2) := roundDouble_nonneg (by positivity)
      have hquotient : (0 : ℚ) ≤ roundDouble ((size : ℚ) * 2) / 1024 ^ 3 := div_nonneg hround (by norm_num)
      exact hquotient

variable {resolve : Option (String → Option String)} {manifest : ModelRun}

theorem authorizeEvictTargets_verified {disk : Disk} {dir : WorkloadsDir} {targets verified : List String}
    (hok : authorizeEvictTargets resolve disk dir manifest targets = .ok verified) {target : String}
    (hmem : target ∈ verified) :
    target ∈ targets ∧ checkEvictTarget resolve disk dir manifest target = .verified := by
  induction targets generalizing verified with
  | nil =>
    cases hok
    cases hmem
  | cons first rest ih =>
    unfold authorizeEvictTargets at hok
    split at hok
    · cases hok
    · obtain ⟨hrest, hcheck⟩ := ih hok hmem
      exact ⟨mem_cons_of_mem _ hrest, hcheck⟩
    next hcheck =>
      cases htail : authorizeEvictTargets resolve disk dir manifest rest with
      | error refusal =>
        rw [htail] at hok
        cases hok
      | ok tail =>
        rw [htail] at hok
        cases hok
        obtain rfl | htail' := mem_cons.mp hmem
        · exact ⟨mem_cons_self, hcheck⟩
        · obtain ⟨hrest, hcheck⟩ := ih htail htail'
          exact ⟨mem_cons_of_mem _ hrest, hcheck⟩

theorem checkEvictTarget_verified {disk : Disk} {dir : WorkloadsDir} {target : String} (hcheck : checkEvictTarget resolve disk dir manifest target = .verified) :
    ∃ loaded, dir.get? target = some (.modelRun loaded) := by
  unfold checkEvictTarget at hcheck
  dsimp only at hcheck
  split at hcheck
  · cases hcheck
  split at hcheck
  · cases hcheck
  split at hcheck
  · cases hcheck
  next loaded hget => exact ⟨loaded, hget⟩
  · split at hcheck
    · cases hcheck
    · cases hcheck
  · cases hcheck

theorem admitServerBudget_admitted {disk : Disk} {memory : NodeMemory}
    {dir : WorkloadsDir} {reserved : String} {verified : List String}
    (hadmitted : admitServerBudget resolve disk memory dir manifest = (.admitted reserved, verified)) :
    authorizeEvictTargets resolve disk dir manifest (parseEvictTargets manifest) = .ok verified ∧
      ∃ declared admitted, computeNodeBudget manifest.spec.node
        (resolveAdmissionBudgetGiB memory manifest.spec.node declared) (livingFor resolve disk dir manifest verified) manifest
        (manifest.annotations.lookup "llamactl.io/force-admit" = some "true") true
        (sameNode resolve manifest.spec.node) = .ok admitted := by
  unfold admitServerBudget at hadmitted
  split at hadmitted
  · cases hadmitted
  next found hfound =>
    dsimp only at hadmitted
    split at hadmitted
    · cases hadmitted
    next charged hcharged =>
      cases hadmitted
      exact ⟨hfound, _, _, hcharged⟩

/-- The test by which `livingFor` picks is the one that the budget goes by. -/
theorem livingOn_livingFor (resolve : Option (String → Option String)) (disk : Disk) (dir : WorkloadsDir)
    (manifest : ModelRun) (verified : List String) :
    livingOn (sameNode resolve manifest.spec.node) (livingFor resolve disk dir manifest verified) =
      livingFor resolve disk dir manifest verified := by
  apply filter_eq_self.mpr
  intro other hmem
  have htest := (mem_filter.mp hmem).2
  simp only [Bool.and_eq_true] at htest ⊢
  exact ⟨htest.1.1.2, htest.1.2⟩

theorem parseEvictTargets_none (hnone : manifest.annotations.lookup "llamactl.io/evict" = none) :
    parseEvictTargets manifest = [] := by
  have hempty : ("" : String).splitOn "," = [""] := by
    unfold String.splitOn String.splitOnAux
    decide +kernel
  unfold parseEvictTargets
  rw [hnone, Option.getD_none, hempty]
  decide +kernel

end

end llamactl.workload
