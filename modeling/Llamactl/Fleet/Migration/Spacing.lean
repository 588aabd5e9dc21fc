import Llamactl.Fleet.Migration.Faulty
import Llamactl.Fleet.Migration.Records

open collections effect js List Option

namespace llamactl.fleet.migration.faulty

/-! How far apart the deploys of one workload are, and how many of its moves are in
flight. -/

def isDeployOf (workload : String) (event : FEvent) : Bool :=
  match event.call with
  | .deployWorkload _ name _ => name = workload
  | _ => false

def inFlight (trace : List FEvent) : List Move :=
  trace.foldl (fun moves event =>
    match event with
    | ⟨.deployWorkload move _ _, .ok _⟩ => moves ++ [move]
    | ⟨.removeWorkload move _ _ _, .ok _⟩ => moves.filter fun other => other ≠ move
    | _ => moves) []

def inFlightOf (workload : String) (trace : List FEvent) : List Move :=
  (inFlight trace).filter fun move => move.proposal.workload = workload

variable (deps : MigrationControllerDeps)

/-- The clock that the cooldown is measured on: ticks when they are supplied, else
milliseconds. -/
def coolReading (value : Int) : FEvent :=
  if deps.getCurrentTick then ⟨.getCurrentTick, value⟩ else ⟨.getNowMs, value⟩

def coolSpan : Int :=
  if deps.getCurrentTick then deps.moveCooldownTicks else deps.moveCooldownTicks * deps.tickIntervalMs

/-- Two readings of the clock at least the cooldown apart. -/
def Rested (events : List FEvent) : Prop :=
  ∃ first x second y third,
    events = first ++ coolReading deps x :: (second ++ coolReading deps y :: third) ∧ coolSpan deps ≤ y - x

def sinceDeploy (workload : String) (trace : List FEvent) : Option (List FEvent) :=
  trace.foldl (fun since event =>
    if isDeployOf workload event then some [] else since.map (· ++ [event])) none

def Ready (past : List FEvent) (workload : String) : Prop :=
  ∀ since, sinceDeploy workload past = some since → Rested deps since

/-- The reading that a recorded move is measured from. -/
def markValue (state : InFlightMoveState) : Option Int :=
  if deps.getCurrentTick then state.tick else some state.movedAtMs

def Marked (past : List FEvent) (workload : String) (state : InFlightMoveState) : Prop :=
  ∃ value, markValue deps state = some value ∧
    ∀ since, sinceDeploy workload past = some since → coolReading deps value ∈ since

structure Tracks (past : List FEvent) (controller : MigrationController) (workload : String) : Prop where
  cooldown : match controller.inFlightMoves.get? workload with
    | none => Ready deps past workload
    | some state => Ready deps past workload ∨ Marked deps past workload state
  poll : inFlightOf workload past = ((controller.pendingHealthPolls.get? workload).map PendingHealthPoll.move).toList

def RecordsDeploy : FleetJournalEntry → Prop
  | .execution entry => (∃ id : String, entry.reason = some s!"evict suppressed by move {id}") ∨
      ∃ message : String, entry.reason = some s!"apply failed: {message}"
  | .proposal entry => ∃ workload fromNode toNode reason, entry.action = .move workload fromNode toNode reason
  | _ => False

def Booked (trace : List FEvent) : Prop :=
  ∀ entry message, ⟨.writeJournalEntry entry, .error message⟩ ∈ trace → ¬RecordsDeploy entry

variable {deps} {past : List FEvent} {self : MigrationController} {workload : String}

theorem Booked.of_append {more : List FEvent} (hbooked : Booked (past ++ more)) : Booked past :=
  fun entry message hevent => hbooked entry message (mem_append_left more hevent)

theorem inFlight_append (event : FEvent) : inFlight (past ++ [event]) =
    match event with
    | ⟨.deployWorkload move _ _, .ok _⟩ => inFlight past ++ [move]
    | ⟨.removeWorkload move _ _ _, .ok _⟩ => (inFlight past).filter fun other => other ≠ move
    | _ => inFlight past := by
  unfold inFlight
  rw [foldl_append]
  rfl

theorem sinceDeploy_append (event : FEvent) : sinceDeploy workload (past ++ [event]) =
    if isDeployOf workload event then some [] else (sinceDeploy workload past).map (· ++ [event]) := by
  unfold sinceDeploy
  rw [foldl_append]
  rfl

theorem sinceDeploy_suffix {before mid : List FEvent} {deploy : FEvent} (hdeploy : isDeployOf workload deploy = true) :
    ∃ since, sinceDeploy workload (before ++ deploy :: mid) = some since ∧ since <:+ mid := by
  induction mid using List.reverseRecOn with
  | nil =>
    refine ⟨[], ?_, suffix_rfl⟩
    rw [sinceDeploy_append, if_pos hdeploy]
  | append_singleton mid event ih =>
    obtain ⟨since, hsince, hsuffix⟩ := ih
    rw [← cons_append, ← append_assoc, sinceDeploy_append, hsince]
    by_cases hevent : isDeployOf workload event = true
    · exact ⟨[], if_pos hevent, nil_suffix⟩
    refine ⟨since ++ [event], by rw [if_neg hevent]; rfl, ?_⟩
    obtain ⟨front, rfl⟩ := hsuffix
    exact ⟨front, by simp⟩

theorem Rested.of_suffix {since mid : List FEvent} (hrested : Rested deps since) (hsuffix : since <:+ mid) :
    Rested deps mid := by
  obtain ⟨front, rfl⟩ := hsuffix
  obtain ⟨first, x, second, y, third, rfl, hspan⟩ := hrested
  exact ⟨front ++ first, x, second, y, third, by simp, hspan⟩

theorem Rested.append {since : List FEvent} (hrested : Rested deps since) (event : FEvent) :
    Rested deps (since ++ [event]) := by
  obtain ⟨first, x, second, y, third, rfl, hspan⟩ := hrested
  exact ⟨first, x, second, y, third ++ [event], by simp, hspan⟩

variable {event : FEvent}

theorem Ready.append (hready : Ready deps past workload) (hevent : isDeployOf workload event = false) :
    Ready deps (past ++ [event]) workload := by
  intro since hsince
  rw [sinceDeploy_append, hevent] at hsince
  obtain ⟨earlier, hearlier, rfl⟩ := map_eq_some_iff.mp hsince
  exact (hready earlier hearlier).append event

theorem Marked.append {state : InFlightMoveState} (hmarked : Marked deps past workload state)
    (hevent : isDeployOf workload event = false) : Marked deps (past ++ [event]) workload state := by
  obtain ⟨value, hvalue, hsince⟩ := hmarked
  refine ⟨value, hvalue, fun since hlonger => ?_⟩
  rw [sinceDeploy_append, hevent] at hlonger
  obtain ⟨earlier, hearlier, rfl⟩ := map_eq_some_iff.mp hlonger
  exact mem_append_left _ (hsince earlier hearlier)

/-- A reading a cooldown after an earlier one shows that the cooldown has passed. -/
theorem ready_of_readings {value now : Int}
    (hmem : ∀ since, sinceDeploy workload past = some since → coolReading deps value ∈ since)
    (hspan : coolSpan deps ≤ now - value) : Ready deps (past ++ [coolReading deps now]) workload := by
  have hquiet : isDeployOf workload (coolReading deps now) = false := by
    unfold coolReading
    split <;> rfl
  intro since hsince
  rw [sinceDeploy_append, hquiet] at hsince
  obtain ⟨earlier, hearlier, rfl⟩ := map_eq_some_iff.mp hsince
  obtain ⟨first, second, rfl⟩ := append_of_mem (hmem earlier hearlier)
  exact ⟨first, value, second, now, [], by simp, hspan⟩

def Still (call : Call) : Prop :=
  match call with
  | .deployWorkload _ _ _ => False
  | .removeWorkload _ _ _ _ => False
  | _ => True

theorem still_of_observes {call : Call} (hobserves : Observes call) : Still call := by
  cases call
  case deployWorkload => exact hobserves.elim
  case removeWorkload => exact hobserves.elim
  all_goals trivial

theorem isDeployOf_still (hstill : Still event.call) : isDeployOf workload event = false := by
  obtain ⟨call, reply⟩ := event
  cases call
  case deployWorkload => exact hstill.elim
  all_goals rfl

theorem inFlight_still (hstill : Still event.call) : inFlight (past ++ [event]) = inFlight past := by
  rw [inFlight_append]
  obtain ⟨call, reply⟩ := event
  cases call
  case deployWorkload => exact hstill.elim
  case removeWorkload => exact hstill.elim
  all_goals rfl

theorem Tracks.cooldown_append (htracks : Tracks deps past self workload)
    (hquiet : isDeployOf workload event = false) :
    match self.inFlightMoves.get? workload with
    | none => Ready deps (past ++ [event]) workload
    | some state => Ready deps (past ++ [event]) workload ∨ Marked deps (past ++ [event]) workload state := by
  have hcooldown := htracks.cooldown
  cases hstate : self.inFlightMoves.get? workload with
  | none =>
    rw [hstate] at hcooldown
    exact hcooldown.append hquiet
  | some state =>
    rw [hstate] at hcooldown
    rcases hcooldown with hready | hmarked
    · exact Or.inl (hready.append hquiet)
    · exact Or.inr (hmarked.append hquiet)

theorem Tracks.unaffected (htracks : Tracks deps past self workload) (hquiet : isDeployOf workload event = false)
    (hflight : inFlightOf workload (past ++ [event]) = inFlightOf workload past) :
    Tracks deps (past ++ [event]) self workload :=
  ⟨htracks.cooldown_append hquiet, hflight.trans htracks.poll⟩

theorem inFlightOf_still (hstill : Still event.call) :
    inFlightOf workload (past ++ [event]) = inFlightOf workload past := by
  unfold inFlightOf
  rw [inFlight_still hstill]

theorem Tracks.still (htracks : Tracks deps past self workload) (hstill : Still event.call) :
    Tracks deps (past ++ [event]) self workload :=
  htracks.unaffected (isDeployOf_still hstill) (inFlightOf_still hstill)

theorem Tracks.same {after : MigrationController} (htracks : Tracks deps past self workload)
    (hmoves : after.inFlightMoves.get? workload = self.inFlightMoves.get? workload)
    (hpolls : (after.pendingHealthPolls.get? workload).map PendingHealthPoll.move =
      (self.pendingHealthPolls.get? workload).map PendingHealthPoll.move) : Tracks deps past after workload := by
  obtain ⟨hcooldown, hpoll⟩ := htracks
  refine ⟨?_, hpoll.trans ?_⟩
  · rw [hmoves]
    exact hcooldown
  · rw [hpolls]

variable (deps) in
/-- Every workload is tracked, as long as every deploy was recorded. -/
def Spaced (past : List FEvent) (self : MigrationController) : Prop :=
  Booked past → ∀ workload, Tracks deps past self workload

variable (deps) in
/-- A deploy comes only when the cooldown of its workload has passed and no move of
it is in flight. -/
def Spares (past : List FEvent) (event : FEvent) : Prop :=
  Booked past →
    match event.call with
    | .deployWorkload move name _ => move.proposal.workload = name ∧ Ready deps past name ∧ inFlightOf name past = []
    | _ => True

theorem spares_of_still (hstill : Still event.call) : Spares deps past event := by
  intro _
  obtain ⟨call, reply⟩ := event
  cases call
  case deployWorkload => exact hstill.elim
  all_goals trivial

theorem Spares.ready (hspares : Spares deps past event) (hbooked : Booked past)
    (hdeploy : isDeployOf workload event = true) : Ready deps past workload := by
  have hgood := hspares hbooked
  obtain ⟨call, reply⟩ := event
  cases call
  case deployWorkload move name node =>
    have hname : name = workload := by simpa [isDeployOf] using hdeploy
    exact hname ▸ hgood.2.1
  all_goals cases hdeploy

theorem spaced_nil (self : MigrationController) (hpolls : self.pendingHealthPolls = OrderedMap.empty) :
    Spaced deps [] self := by
  intro _ workload
  have hready : Ready deps [] workload := fun _ hsince => nomatch hsince
  constructor
  · cases self.inFlightMoves.get? workload with
    | none => exact hready
    | some state => exact Or.inl hready
  · rw [hpolls]
    rfl

/-- The assertion is kept by every call that neither deploys nor removes. -/
def Carried (inv : List FEvent → Prop) : Prop :=
  ∀ past event, Still event.call → inv past → inv (past ++ [event])

theorem spaced_carried (self : MigrationController) : Carried fun past => Spaced deps past self :=
  fun _ _ hstill hspaced hbooked other => (hspaced hbooked.of_append other).still hstill

theorem ready_carried (workload : String) : Carried fun past => Booked past → Ready deps past workload :=
  fun _ _ hstill hready hbooked => (hready hbooked.of_append).append (isDeployOf_still hstill)

theorem Carried.and {first second : List FEvent → Prop} (hfirst : Carried first) (hsecond : Carried second) :
    Carried fun past => first past ∧ second past :=
  fun past event hstill hboth => ⟨hfirst past event hstill hboth.1, hsecond past event hstill hboth.2⟩

theorem Carried.observing {A : Type} {inv : List FEvent → Prop} (hinv : Carried inv) {p : MProg A} {post : A → Prop}
    (hp : p.Only Observes post) (hpast : inv past) :
    (p.withReplies settled).Holds (Spares deps) (fun after result => inv after ∧ post result) past :=
  Prog.Only.holds (fun _ _ hobserves => spares_of_still (still_of_observes hobserves))
    (fun past event hobserves => hinv past event (still_of_observes hobserves)) hp.withReplies hpast

variable {S : Type} {inv : List FEvent → S → Prop}

theorem Carried.issue {thrown : List FEvent → S → Prop} (hinv : ∀ state, Carried fun past => inv past state)
    {call : Call} (hstill : Still call) :
    Fallible.Ensures (Spares deps) inv (Fallible.issue call : FProg S (Reply call)) (fun past _ state => inv past state)
      thrown :=
  Fallible.Ensures.issue (fun _ _ _ _ => spares_of_still hstill)
    (fun past state reply hpast => hinv state past ⟨call, reply⟩ hstill hpast)

theorem Carried.clock {thrown : List FEvent → S → Prop} (hinv : ∀ state, Carried fun past => inv past state) :
    Fallible.Ensures (Spares deps) inv (nowMs : FProg S Int) (fun past _ state => inv past state) thrown :=
  Carried.issue hinv trivial

theorem Carried.write (hinv : ∀ state, Carried fun past => inv past state) (entry : FleetJournalEntry) :
    Fallible.Ensures (Spares deps) inv (writeJournalEntry entry : FProg S Unit) (fun past _ state => inv past state) inv :=
  writeJournalEntry_ensures (fun _ _ _ _ => spares_of_still trivial)
    (fun past state hpast => hinv state past _ trivial hpast) (fun past state _ hpast => hinv state past _ trivial hpast)

theorem write_recording {inv : List FEvent → MigrationController → Prop}
    (hinv : ∀ self, Carried fun past => inv past self) {entry : FleetJournalEntry} (hrecords : RecordsDeploy entry) :
    Fallible.Ensures (Spares deps) inv (writeJournalEntry entry) (fun past _ self => inv past self) (Spaced deps) := by
  refine writeJournalEntry_ensures (fun _ _ _ _ => spares_of_still trivial)
    (fun past self hpast => hinv self past _ trivial hpast) (fun past self message hpast hbooked => ?_)
  exact absurd hrecords (hbooked entry message (by simp))

section

/-- The check of the cooldown: it is over only when the clock shows it. -/
theorem isInMoveCooldown_spaced (hspaced : Spaced deps past self) (workload : String) :
    ((isInMoveCooldown deps self workload).withReplies settled).Holds (Spares deps) (fun after result =>
      Spaced deps after result.2 ∧ (result.1 = false → Booked after → Ready deps after workload)) past := by
  unfold isInMoveCooldown
  cases hstate : self.inFlightMoves.get? workload with
  | none =>
    refine ⟨hspaced, fun _ hbooked => ?_⟩
    have hcooldown := (hspaced hbooked workload).cooldown
    rwa [hstate] at hcooldown
  | some state =>
    -- In either unit the reading decides; an elapsed cooldown is forgotten.
    have hdecide : ∀ (event : FEvent) (active : Bool), Still event.call →
        (active = false → ∀ value, markValue deps state = some value →
          ∃ now, event = coolReading deps now ∧ coolSpan deps ≤ now - value) →
        Spaced deps (past ++ [event]) (if active then self else
          { self with inFlightMoves := self.inFlightMoves.erase workload }) ∧
        (active = false → Booked (past ++ [event]) → Ready deps (past ++ [event]) workload) := by
      intro event active hstill helapsed
      have hready : active = false → Booked (past ++ [event]) → Ready deps (past ++ [event]) workload := by
        intro hover hbooked
        have hcooldown := (hspaced hbooked.of_append workload).cooldown
        rw [hstate] at hcooldown
        rcases hcooldown with hready | ⟨value, hvalue, hmem⟩
        · exact hready.append (isDeployOf_still hstill)
        · obtain ⟨now, rfl, hspan⟩ := helapsed hover value hvalue
          exact ready_of_readings hmem hspan
      refine ⟨fun hbooked other => ?_, hready⟩
      have htracks := (hspaced hbooked.of_append other).still hstill
      cases active with
      | true => exact htracks
      | false =>
        by_cases hother : other = workload
        · subst hother
          refine ⟨?_, htracks.poll⟩
          rw [if_neg (by simp), OrderedMap.get?_erase, if_pos rfl]
          exact hready rfl hbooked
        · refine htracks.same ?_ rfl
          rw [if_neg (by simp), OrderedMap.get?_erase, if_neg hother]
    dsimp only
    unfold cooldownActive
    split
    · rename_i marked htick hsupplied
      intro current
      refine ⟨spares_of_still trivial, ?_⟩
      have hdone := hdecide ⟨.getCurrentTick, current⟩ (decide (current - marked < deps.moveCooldownTicks)) trivial ?_
      · cases hactive : decide (current - marked < deps.moveCooldownTicks) with
        | true =>
          rw [hactive] at hdone
          simpa [settled, hactive] using hdone
        | false =>
          rw [hactive] at hdone
          simpa [settled, hactive] using hdone
      intro hover value hvalue
      rw [markValue, if_pos hsupplied, htick] at hvalue
      cases hvalue
      refine ⟨current, by rw [coolReading, if_pos hsupplied], ?_⟩
      rw [coolSpan, if_pos hsupplied]
      simpa using hover
    rename_i hunit
    intro now
    refine ⟨spares_of_still trivial, ?_⟩
    have hdone := hdecide ⟨.getNowMs, now⟩
      (decide (now - state.movedAtMs < deps.moveCooldownTicks * deps.tickIntervalMs)) trivial ?_
    · cases hactive : decide (now - state.movedAtMs < deps.moveCooldownTicks * deps.tickIntervalMs) with
      | true =>
        rw [hactive] at hdone
        simpa [settled, hactive] using hdone
      | false =>
        rw [hactive] at hdone
        simpa [settled, hactive] using hdone
    intro hover value hvalue
    cases hsupplied : deps.getCurrentTick with
    | true =>
      rw [markValue, if_pos hsupplied] at hvalue
      exact (hunit value hvalue hsupplied).elim
    | false =>
      have hmissing : ¬deps.getCurrentTick = true := by simp [hsupplied]
      rw [markValue, if_neg hmissing] at hvalue
      cases hvalue
      refine ⟨now, by rw [coolReading, if_neg hmissing], ?_⟩
      rw [coolSpan, if_neg hmissing]
      simpa using hover

variable (deps) in
/-- A proposal comes only for a workload whose cooldown has passed. -/
def Offers (workload : String) (after : List FEvent) (result : Option MoveProposal × MigrationController) : Prop :=
  Spaced deps after result.2 ∧ ∀ proposal, result.1 = some proposal →
    proposal.workload = workload ∧ (Booked after → Ready deps after workload)

theorem Tracks.reserved {after : MigrationController} (htracks : Tracks deps past self workload)
    (hreserves : OnlyReserves self after) : Tracks deps past after workload := by
  rw [hreserves]
  exact ⟨htracks.cooldown, htracks.poll⟩

theorem proposeMove_offers (workload : MigrationWorkload) (fromNode : Option String)
    (hspaced : Spaced deps past self) (hready : Booked past → Ready deps past workload.name) :
    ((proposeMove deps self workload fromNode).withReplies settled).Holds (Spares deps) (Offers deps workload.name) past := by
  have honly : (proposeMove deps self workload fromNode).Only Observes fun result =>
      OnlyReserves self result.2 ∧ ∀ proposal, result.1 = some proposal → proposal.workload = workload.name := by
    refine (proposeMove_reserves deps self workload fromNode).mono ?_
    rintro result ⟨hproposal, hreserves⟩
    exact ⟨hreserves, fun proposal hsome => (hproposal proposal hsome).names⟩
  refine (((spaced_carried self).and (ready_carried workload.name)).observing honly ⟨hspaced, hready⟩).mono ?_
  rintro after result ⟨⟨hafter, hcool⟩, hreserves, hnames⟩
  refine ⟨fun hbooked other => (hafter hbooked other).reserved hreserves, fun proposal hsome => ?_⟩
  exact ⟨hnames proposal hsome, hcool⟩

theorem evaluateMove_offers (workload : MigrationWorkload) (snapshot : NodeSnapshot) (hspaced : Spaced deps past self) :
    ((migration.evaluateMove deps self workload snapshot).withReplies settled).Holds (Spares deps)
      (Offers deps workload.name) past := by
  have hnothing : ∀ {past after}, Spaced deps past after → Offers deps workload.name past (none, after) :=
    fun hafter => ⟨hafter, nofun⟩
  unfold migration.evaluateMove
  split
  · exact hnothing hspaced
  intro holder
  refine ⟨spares_of_still trivial, ?_⟩
  have hheld : Spaced deps (past ++ [⟨.getLeaseHolder, holder⟩]) self := spaced_carried self past _ trivial hspaced
  dsimp only [Prog.ret_bind, settled]
  split
  · exact hnothing hheld
  have hvisible : (suppliedFlag deps.canSeeFreshDestinationPeer true
      (Prog.issue Call.canSeeFreshDestinationPeer)).Only Observes fun _ => True :=
    suppliedFlag_only _ _ ⟨trivial, fun _ => trivial⟩
  rw [Prog.bind_eq, Prog.withReplies_bind]
  refine ((spaced_carried self).observing hvisible hheld).bind fun past visible hpast => ?_
  split
  · exact hnothing hpast.1
  split
  · exact hnothing hpast.1
  rw [Prog.bind_eq, Prog.withReplies_bind]
  refine (isInMoveCooldown_spaced hpast.1 workload.name).bind fun past cooldown hcool => ?_
  split
  · exact hnothing hcool.1
  rename_i hover
  split
  · exact hnothing hcool.1
  have hmoving : (suppliedFlag deps.isPeerMovingWorkload false
      (Prog.issue (Call.isPeerMovingWorkload workload.name))).Only Observes fun _ => True :=
    suppliedFlag_only _ _ ⟨trivial, fun _ => trivial⟩
  have hready : Booked past → Ready deps past workload.name := hcool.2 (by simpa using hover)
  rw [Prog.bind_eq, Prog.withReplies_bind]
  refine (((spaced_carried cooldown.2).and (ready_carried workload.name)).observing hmoving
    ⟨hcool.1, hready⟩).bind fun past moving hpast => ?_
  split
  · exact hnothing hpast.1.1
  · exact proposeMove_offers workload _ hpast.1.1 hpast.1.2

end

section

variable (deps) in
/-- Between a deploy and its registration: the workload has the given moves in
flight and no poll yet. -/
structure Deploying (past : List FEvent) (controller : MigrationController) (workload : String) (moves : List Move) :
    Prop where
  others : ∀ other, other ≠ workload → Tracks deps past controller other
  opened : inFlightOf workload past = moves
  unpolled : controller.pendingHealthPolls.get? workload = none

variable (deps) in
/-- The deploy is recorded in the cooldown. -/
structure Cooling (past : List FEvent) (controller : MigrationController) (workload : String) (moves : List Move) : Prop
    extends Deploying deps past controller workload moves where
  cooling : ∃ state, controller.inFlightMoves.get? workload = some state ∧ Marked deps past workload state

variable {moves : List Move}

theorem deploying_carried (self : MigrationController) :
    Carried fun past => Booked past → Deploying deps past self workload moves := by
  intro past event hstill hdeploying hbooked
  obtain ⟨hothers, hopened, hunpolled⟩ := hdeploying hbooked.of_append
  exact ⟨fun other hother => (hothers other hother).still hstill, (inFlightOf_still hstill).trans hopened, hunpolled⟩

theorem cooling_carried (self : MigrationController) :
    Carried fun past => Booked past → Cooling deps past self workload moves := by
  intro past event hstill hcooling hbooked
  obtain ⟨hdeploying, state, hstate, hmarked⟩ := hcooling hbooked.of_append
  refine ⟨deploying_carried self past event hstill (fun _ => hdeploying) hbooked, state, hstate, ?_⟩
  exact hmarked.append (isDeployOf_still hstill)

theorem marked_of_reading {state : InFlightMoveState} {value : Int} (hvalue : markValue deps state = some value) :
    Marked deps (past ++ [coolReading deps value]) workload state := by
  have hquiet : isDeployOf workload (coolReading deps value) = false := by
    unfold coolReading
    split <;> rfl
  refine ⟨value, hvalue, fun since hsince => ?_⟩
  rw [sinceDeploy_append, hquiet] at hsince
  obtain ⟨earlier, -, rfl⟩ := map_eq_some_iff.mp hsince
  exact mem_append_right _ mem_cons_self

theorem markMoveInFlight_cooling :
    Fallible.Ensures (Spares deps) (fun past self => Booked past → Deploying deps past self workload moves)
      (markMoveInFlight deps workload) (fun past _ self => Booked past → Cooling deps past self workload moves)
      (Spaced deps) := by
  refine Fallible.Ensures.lift fun past self hdeploying => ?_
  -- Setting the entry of the workload touches no other workload.
  have hset : ∀ (after : List FEvent) (state : InFlightMoveState),
      (Booked after → Deploying deps after self workload moves) → Marked deps after workload state →
      Booked after → Cooling deps after { self with inFlightMoves := self.inFlightMoves.set workload state } workload moves := by
    intro after state hafter hmarked hbooked
    obtain ⟨hothers, hopened, hunpolled⟩ := hafter hbooked
    refine ⟨⟨fun other hother => (hothers other hother).same ?_ rfl, hopened, hunpolled⟩, state, ?_, hmarked⟩
    · exact (OrderedMap.get?_set _ _ _ _).trans (if_neg hother)
    · exact (OrderedMap.get?_set _ _ _ _).trans (if_pos rfl)
  unfold migration.markMoveInFlight suppliedTick
  cases hsupplied : deps.getCurrentTick with
  | true =>
    have hreading : ∀ tick : Int, (⟨.getCurrentTick, tick⟩ : FEvent) = coolReading deps tick :=
      fun tick => by rw [coolReading, if_pos hsupplied]
    intro tick
    refine ⟨spares_of_still trivial, fun movedAtMs => ⟨spares_of_still trivial, ?_⟩⟩
    refine hset _ _ (deploying_carried self _ _ trivial (deploying_carried self _ _ trivial hdeploying)) ?_
    refine Marked.append ?_ rfl
    rw [hreading tick]
    exact marked_of_reading (by rw [markValue, if_pos hsupplied]; rfl)
  | false =>
    have hmissing : ¬deps.getCurrentTick = true := by simp [hsupplied]
    intro movedAtMs
    refine ⟨spares_of_still trivial, ?_⟩
    refine hset _ _ (deploying_carried self _ _ trivial hdeploying) ?_
    have hreading : (⟨.getNowMs, movedAtMs⟩ : FEvent) = coolReading deps movedAtMs := by
      rw [coolReading, if_neg hmissing]
    rw [hreading]
    exact marked_of_reading (by rw [markValue, if_neg hmissing]; rfl)

theorem Cooling.tracks (hcooling : Cooling deps past self workload moves) {after : MigrationController}
    (hmoves : after.inFlightMoves = self.inFlightMoves)
    (hothers : ∀ other, other ≠ workload → after.pendingHealthPolls.get? other = self.pendingHealthPolls.get? other)
    (hpoll : moves = ((after.pendingHealthPolls.get? workload).map PendingHealthPoll.move).toList) (other : String) :
    Tracks deps past after other := by
  obtain ⟨⟨htracked, hopened, -⟩, state, hstate, hmarked⟩ := hcooling
  by_cases hother : other = workload
  · subst hother
    refine ⟨?_, hopened.trans hpoll⟩
    rw [hmoves, hstate]
    exact Or.inr hmarked
  · refine (htracked other hother).same (by rw [hmoves]) ?_
    rw [hothers other hother]

theorem writeSkippedEvictAndMoveProposal_deploying (proposal : MoveProposal) (ms : Int) :
    Fallible.Ensures (Spares deps) (fun past self => Booked past → Deploying deps past self workload moves)
      (writeSkippedEvictAndMoveProposal deps proposal ms)
      (fun past _ self => Booked past → Deploying deps past self workload moves) (Spaced deps) := by
  have hskipped : RecordsDeploy (.execution (skippedEvict deps proposal ms)) := Or.inl ⟨_, rfl⟩
  have hproposal : RecordsDeploy (.proposal (moveProposalEntry deps proposal ms)) := ⟨_, _, _, _, rfl⟩
  unfold writeSkippedEvictAndMoveProposal
  exact (write_recording deploying_carried hskipped).bind fun _ => write_recording deploying_carried hproposal

theorem reserveDestinationCapacity_deploying (peer : String) (memoryMb : Int) :
    Fallible.Ensures (Spares deps) (fun past self => Booked past → Deploying deps past self workload moves)
      (reserveDestinationCapacity deps peer memoryMb)
      (fun past _ self => Booked past → Deploying deps past self workload moves) (Spaced deps) := by
  refine Fallible.Ensures.lift fun past self hdeploying => ?_
  have honly : (do return ((), ← migration.reserveDestinationCapacity deps self peer memoryMb) : MProg _).Only Observes
      fun result => OnlyReserves self result.2 :=
    (reserveDestinationCapacity_reserves deps self peer memoryMb).bind fun _ hreserves => hreserves
  refine ((deploying_carried self).observing honly hdeploying).mono ?_
  rintro after result ⟨hafter, hreserves⟩ hbooked
  obtain ⟨hothers, hopened, hunpolled⟩ := hafter hbooked
  refine ⟨fun other hother => (hothers other hother).reserved hreserves, hopened, ?_⟩
  rw [hreserves]
  exact hunpolled

theorem registerMove_spaced (move : Move) (ms : Int) :
    Fallible.Ensures (Spares deps)
      (fun past self => Booked past → Deploying deps past self move.proposal.workload [move])
      (registerMove deps move ms) (fun past _ self => Spaced deps past self) (Spaced deps) := by
  unfold registerMove
  refine (writeSkippedEvictAndMoveProposal_deploying move.proposal ms).bind fun _ => ?_
  refine (reserveDestinationCapacity_deploying _ _).bind fun _ => ?_
  refine markMoveInFlight_cooling.bind fun _ => ?_
  refine (Carried.clock cooling_carried).bind fun deployedAtMs => Fallible.Ensures.modify fun past self hcooling hbooked => ?_
  refine (hcooling hbooked).tracks rfl (fun other hother => ?_) ?_
  · exact (OrderedMap.get?_set _ _ _ _).trans (if_neg hother)
  · rw [OrderedMap.get?_set, if_pos rfl]
    rfl

theorem recordDeploy_spaced (move : Move) (ms : Int) (reply : Except String Unit) :
    Fallible.Ensures (Spares deps)
      (fun past self => Booked past → Deploying deps past self move.proposal.workload
        (match reply with | .ok _ => [move] | .error _ => []))
      (recordDeploy deps move ms reply) (fun past _ self => Spaced deps past self) (Spaced deps) := by
  cases reply with
  | ok value => exact (registerMove_spaced move ms).bind fun _ => Fallible.Ensures.pure fun _ _ hspaced => hspaced
  | error message =>
    refine (Carried.clock deploying_carried).bind fun failedMs => ?_
    have hfailed : RecordsDeploy (moveExecution deps move.proposal failedMs .failed (some s!"apply failed: {message}")) :=
      Or.inr ⟨message, rfl⟩
    refine (write_recording deploying_carried hfailed).bind fun _ => ?_
    refine markMoveInFlight_cooling.bind fun _ => Fallible.Ensures.pure fun past self hcooling hbooked => ?_
    exact (hcooling hbooked).tracks rfl (fun _ _ => rfl) (by rw [(hcooling hbooked).unpolled]; rfl)

variable (deps) in
/-- A workload that may be deployed. -/
structure Clear (workload : String) (past : List FEvent) (controller : MigrationController) : Prop where
  spaced : Spaced deps past controller
  ready : Booked past → Ready deps past workload
  unpolled : controller.pendingHealthPolls.get? workload = none

theorem clear_carried (self : MigrationController) : Carried fun past => Clear deps workload past self :=
  fun past event hstill hclear => ⟨spaced_carried self past event hstill hclear.spaced,
    ready_carried workload past event hstill hclear.ready, hclear.unpolled⟩

theorem deployMove_spaced (proposal : MoveProposal) :
    Fallible.Ensures (Spares deps) (Clear deps proposal.workload) (deployMove deps proposal)
      (fun past _ self => Spaced deps past self) (Spaced deps) := by
  unfold deployMove
  refine (Carried.clock clear_carried).bind fun ms => Fallible.Ensures.get_bind fun before => ?_
  have hcount : Fallible.Ensures (Spares deps) (fun past self => Clear deps proposal.workload past self ∧ self = before)
      (Fallible.modify fun self => { self with deploys := self.deploys + 1 })
      (fun past _ self => Clear deps proposal.workload past self) (Spaced deps) := by
    refine Fallible.Ensures.modify ?_
    rintro past self ⟨⟨hspaced, hready, hunpolled⟩, -⟩
    exact ⟨fun hbooked other => (hspaced hbooked other).same rfl rfl, hready, hunpolled⟩
  refine hcount.bind fun _ => Fallible.Ensures.bind (Fallible.Ensures.issue ?_ ?_)
    fun reply => recordDeploy_spaced ⟨before.deploys, proposal⟩ ms reply
  · rintro past self reply ⟨hspaced, hready, hunpolled⟩ hbooked
    refine ⟨rfl, hready hbooked, ?_⟩
    rw [(hspaced hbooked proposal.workload).poll, hunpolled]
    rfl
  rintro past self reply ⟨hspaced, hready, hunpolled⟩ hbooked
  have hopen : inFlightOf proposal.workload past = [] := by
    rw [(hspaced hbooked.of_append proposal.workload).poll, hunpolled]
    rfl
  refine ⟨fun other hother => ?_, ?_, hunpolled⟩
  · refine (hspaced hbooked.of_append other).unaffected ?_ ?_
    · simpa [isDeployOf] using Ne.symm hother
    unfold inFlightOf
    rw [inFlight_append]
    cases reply with
    | error message => rfl
    | ok value => simp [Ne.symm hother]
  unfold inFlightOf at hopen ⊢
  rw [inFlight_append]
  cases reply with
  | error message => exact hopen
  | ok value => simp [hopen]

theorem unjournaled_carried {A : Type} {inv : List FEvent → MigrationController → Prop}
    (hinv : ∀ self, Carried fun past => inv past self) {p : MProg A} (hp : p.Only Observes fun _ => True) :
    Fallible.Ensures (Spares deps) inv (unjournaled fun self => do return (← p, self))
      (fun past _ self => inv past self) (Spaced deps) := by
  refine Fallible.Ensures.lift fun past self hpast => ?_
  have honly : (do return (← p, self) : MProg _).Only Observes fun result => result.2 = self := hp.bind fun _ _ => rfl
  refine ((hinv self).observing honly hpast).mono ?_
  rintro after result ⟨hafter, hsame⟩
  rw [hsame]
  exact hafter

theorem preflightMove_spaced (proposal : MoveProposal) :
    Fallible.Ensures (Spares deps) (Clear deps proposal.workload) (preflightMove deps proposal)
      (fun past _ self => Spaced deps past self) (Spaced deps) := by
  unfold preflightMove
  refine (unjournaled_carried clear_carried (safeFetchSnapshot_only none proposal.toNode)).bind fun snapshot => ?_
  cases snapshot with
  | none => exact Fallible.Ensures.pure fun _ _ hclear => hclear.spaced
  | some snapshot =>
    dsimp only
    split
    · exact deployMove_spaced proposal
    · exact Fallible.Ensures.pure fun _ _ hclear => hclear.spaced

theorem executeMove_spaced (proposal : MoveProposal) :
    Fallible.Ensures (Spares deps)
      (fun past self => Spaced deps past self ∧ (Booked past → Ready deps past proposal.workload))
      (executeMove deps proposal) (fun past _ self => Spaced deps past self) (Spaced deps) := by
  unfold executeMove
  refine Fallible.Ensures.get_bind fun before => ?_
  split
  · refine Fallible.Ensures.strengthen (fun past self hpast => hpast.1.1) ?_
    refine (Carried.clock spaced_carried).bind fun ms => ?_
    exact (Carried.write spaced_carried _).bind fun _ => Fallible.Ensures.pure fun _ _ hspaced => hspaced
  rename_i hunpolled
  split
  · exact Fallible.Ensures.pure fun _ _ hpast => hpast.1.1
  have hclear : ∀ past self, (Spaced deps past self ∧ (Booked past → Ready deps past proposal.workload)) ∧ self = before →
      Clear deps proposal.workload past self := by
    rintro past self ⟨⟨hspaced, hready⟩, rfl⟩
    exact ⟨hspaced, hready, by simpa [OrderedMap.has] using hunpolled⟩
  refine Fallible.Ensures.strengthen hclear ?_
  have hlease : Fallible.Ensures (Spares deps) (Clear deps proposal.workload) (Fallible.issue Call.getLeaseHolder)
      (fun past _ self => Clear deps proposal.workload past self) (Spaced deps) :=
    Carried.issue clear_carried trivial
  refine hlease.bind fun holder => ?_
  split
  · exact Fallible.Ensures.pure fun _ _ hclear => hclear.spaced
  refine (unjournaled_carried clear_carried (moveExpired_only proposal)).bind fun expired => ?_
  split
  · exact Fallible.Ensures.pure fun _ _ hclear => hclear.spaced
  · exact preflightMove_spaced proposal

end

section

variable (deps) in
def Polled (key : String) (move : Move) (past : List FEvent) (self : MigrationController) : Prop :=
  Spaced deps past self ∧ (self.pendingHealthPolls.get? key).map PendingHealthPoll.move = some move

theorem polled_carried {key : String} {move : Move} (self : MigrationController) :
    Carried fun past => Polled deps key move past self :=
  fun past event hstill hpolled => ⟨spaced_carried self past event hstill hpolled.1, hpolled.2⟩

theorem Polled.removed {key : String} {move : Move} (hpolled : Polled deps key move past self) {copy : Copy}
    {name node : String} (hbooked : Booked (past ++ [⟨.removeWorkload move copy name node, .ok ()⟩])) (other : String) :
    Tracks deps (past ++ [⟨.removeWorkload move copy name node, .ok ()⟩])
      { self with pendingHealthPolls := self.pendingHealthPolls.erase key } other := by
  have htracks := hpolled.1 hbooked.of_append
  have hopen : inFlightOf key past = [move] := by
    rw [(htracks key).poll, hpolled.2]
    rfl
  have hkey : move.proposal.workload = key := by
    have hmem : move ∈ inFlightOf key past := by simp [hopen]
    simpa using (mem_filter.mp hmem).2
  have hflight : inFlightOf other (past ++ [⟨.removeWorkload move copy name node, .ok ()⟩]) =
      (inFlightOf other past).filter fun moved => moved ≠ move := by
    unfold inFlightOf
    rw [inFlight_append, List.filter_filter, List.filter_filter]
    congr 1
    funext moved
    exact Bool.and_comm _ _
  have hbefore : Tracks deps past self other := htracks other
  by_cases hother : other = key
  · subst hother
    refine ⟨hbefore.cooldown_append rfl, ?_⟩
    rw [hflight, hopen]
    simp [OrderedMap.get?_erase]
  refine (hbefore.unaffected rfl ?_).same rfl ?_
  · rw [hflight, filter_eq_self]
    intro moved hmoved
    have hname : moved.proposal.workload = other := by simpa using (mem_filter.mp hmoved).2
    have hmoves : moved ≠ move := by
      rintro rfl
      exact hother (hname.symm.trans hkey)
    simpa using hmoves
  · rw [OrderedMap.get?_erase, if_neg hother]

theorem removeCopy_spaced (key : String) (move : Move) (copy : Copy) (ms : Int) (failedReason : String → String)
    (status : ExecutionStatus) (reason : Option String) :
    Fallible.Ensures (Spares deps) (Polled deps key move)
      (removeCopy deps key move copy ms failedReason status reason) (fun past _ self => Spaced deps past self)
      (Spaced deps) := by
  unfold removeCopy
  have hremove : Fallible.Ensures (Spares deps) (Polled deps key move)
      (Fallible.issue (Call.removeWorkload move copy move.proposal.workload (copy.node move.proposal)))
      (fun past reply self => match reply with
        | .error _ => Spaced deps past self
        | .ok _ => Spaced deps past { self with pendingHealthPolls := self.pendingHealthPolls.erase key })
      (Spaced deps) := by
    refine Fallible.Ensures.issue (fun _ _ _ _ _ => trivial) fun past self reply hpolled => ?_
    cases reply with
    | ok value => exact fun hbooked other => hpolled.removed hbooked other
    | error message =>
      intro hbooked other
      refine (hpolled.1 hbooked.of_append other).unaffected rfl ?_
      unfold inFlightOf
      rw [inFlight_append]
  refine hremove.bind fun reply => ?_
  cases reply with
  | error message => exact Carried.write spaced_carried _
  | ok value =>
    have hdrop : Fallible.Ensures (Spares deps)
        (fun past self => Spaced deps past { self with pendingHealthPolls := self.pendingHealthPolls.erase key })
        (Fallible.modify fun self => { self with pendingHealthPolls := self.pendingHealthPolls.erase key })
        (fun past _ self => Spaced deps past self) (Spaced deps) :=
      Fallible.Ensures.modify fun past self hspaced => hspaced
    exact hdrop.bind fun _ => Carried.write spaced_carried _

theorem observeDestinationReachable_polled (key : String) (poll : PendingHealthPoll) :
    Fallible.Ensures (Spares deps) (Polled deps key poll.move) (observeDestinationReachable key poll)
      (fun past _ self => Polled deps key poll.move past self) (Spaced deps) := by
  refine Fallible.Ensures.lift fun past self hpolled => ?_
  unfold migration.observeDestinationReachable
  split
  · exact hpolled
  dsimp only
  rw [Prog.bind_eq, Prog.withReplies_bind]
  refine ((polled_carried self).observing (safeFetchSnapshot_only _ _) hpolled).bind fun past snapshot hpast => ?_
  cases snapshot with
  | none => exact hpast.1
  | some snapshot =>
    dsimp only
    split
    · -- The observation is kept under the same key, for the same move.
      obtain ⟨⟨hspaced, hmove⟩, -⟩ := hpast
      refine ⟨fun hbooked other => (hspaced hbooked other).same rfl ?_, ?_⟩
      · by_cases hother : other = key
        · subst hother
          rw [OrderedMap.get?_set, if_pos rfl, hmove]
          rfl
        · rw [OrderedMap.get?_set, if_neg hother]
      · rw [OrderedMap.get?_set, if_pos rfl]
        rfl
    · exact hpast.1

theorem advanceSinglePendingPoll_spaced (key : String) (poll : PendingHealthPoll) :
    Fallible.Ensures (Spares deps) (Polled deps key poll.move) (advanceSinglePendingPoll deps key poll)
      (fun past _ self => Spaced deps past self) (Spaced deps) := by
  unfold advanceSinglePendingPoll
  refine (Carried.clock polled_carried).bind fun ms => (Carried.clock polled_carried).bind fun now => ?_
  dsimp only
  split
  · exact removeCopy_spaced key poll.move .destination ms _ _ _
  refine (observeDestinationReachable_polled key poll).bind fun reachable => ?_
  split
  · exact removeCopy_spaced key poll.move .source ms _ _ _
  · exact Fallible.Ensures.pure fun _ _ hpolled => hpolled.1

theorem advancePendingHealthPolls_spaced :
    Fallible.Ensures (Spares deps) (Spaced deps) (advancePendingHealthPolls deps)
      (fun past _ self => Spaced deps past self) (Spaced deps) := by
  have hkey : ∀ key, Fallible.Ensures (Spares deps) (Spaced deps) (advanceKey deps key)
      (fun past _ self => Spaced deps past self) (Spaced deps) := by
    intro key
    unfold advanceKey
    refine Fallible.Ensures.get_bind fun before => ?_
    cases hpoll : before.pendingHealthPolls.get? key with
    | none => exact Fallible.Ensures.pure fun _ _ hpast => hpast.1
    | some poll =>
      refine Fallible.Ensures.strengthen ?_ (advanceSinglePendingPoll_spaced key poll)
      rintro past self ⟨hspaced, rfl⟩
      exact ⟨hspaced, by rw [hpoll]; rfl⟩
  unfold advancePendingHealthPolls
  split
  · refine Fallible.Ensures.get_bind fun before => ?_
    refine Fallible.Ensures.strengthen (fun past self hpast => hpast.1) ?_
    exact Fallible.Ensures.foldlM (fun _ key => hkey key) before.pendingHealthPolls.keys ()
  · exact Fallible.Ensures.pure fun _ _ hspaced => hspaced

end

end llamactl.fleet.migration.faulty
