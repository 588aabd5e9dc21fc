import Llamactl.CostGuardian.Tick
import Llamactl.Effect.History

open collections effect js List

namespace llamactl.costguardian

/-! What a tick calls with `dryRun` off, whatever its calls come back with. -/

/-- The call failed: it threw, its answer is no JSON or `null`, or the answer says `ok: false`. -/
def Failed (reply : ToolReply) : Prop :=
  match replyJson reply with
  | .error _ => True
  | .ok parsed => parsed = .null ∨ parsed.get? "ok" = some (.bool false)

def isWet (arguments : Json) : Bool := isFalse (arguments.get? "dryRun")

/-- A call with `dryRun` off. -/
def wetCall : GuardianCall → Bool
  | .callTool _ arguments => isWet arguments
  | _ => false

def wetCallOf (tool : List Nat) : GuardianCall → Bool
  | .callTool name arguments => name = tool && isWet arguments
  | _ => false

def FORCE_PRIVATE_TOOL : List Nat := units "llamactl.embersynth.set-default-profile"

def DEREGISTER_TOOL : List Nat := units "sirius.providers.deregister"

section

variable (opts : RunCostGuardianTickOptions)

def Previewed (past : List GuardianEvent) (provider : Json) : Prop :=
  ∃ earlier reply between entry,
    past = earlier ++ ⟨.callTool DEREGISTER_TOOL (deregisterArguments provider true), reply⟩ :: between ∧
    ¬Failed reply ∧ (⟨.writeJournal (.action entry), ()⟩ : GuardianEvent) ∈ between ∧
    entry.action = .deregisterDryRun ∧ entry.ok = true

/-- The provider equals no protected name up to case and surrounding space. -/
def Unprotected (provider : Json) : Prop :=
  ∀ text, provider = .str text → ∀ name ∈ opts.config.protectedProviders, folded opts name ≠ folded opts text

def NoFailedForcePrivate (past : List GuardianEvent) : Prop :=
  ∀ arguments reply, (⟨.callTool FORCE_PRIVATE_TOOL arguments, reply⟩ : GuardianEvent) ∈ past → isWet arguments = true →
    ¬Failed reply

/-- A deregister call with `dryRun` off is for a previewed and unprotected provider, behind no failed force-private run. -/
def Permitted (past : List GuardianEvent) (event : GuardianEvent) : Prop :=
  wetCallOf DEREGISTER_TOOL event.call = true →
    ∃ provider, event.call = .callTool DEREGISTER_TOOL (deregisterArguments provider false) ∧ Previewed past provider ∧
      Unprotected opts provider ∧ NoFailedForcePrivate past

/-- A trace that keeps what the tick promises: of both wet runs at most one each, and the one of the provider only
where it is permitted. -/
structure Safe (trace : List GuardianEvent) : Prop where
  permitted : Justified (Permitted opts) [] trace
  forcePrivate_once : trace.countP (fun event => wetCallOf FORCE_PRIVATE_TOOL event.call) ≤ 1
  deregister_once : trace.countP (fun event => wetCallOf DEREGISTER_TOOL event.call) ≤ 1
  nothing_else : ∀ event ∈ trace, wetCall event.call = true →
    wetCallOf FORCE_PRIVATE_TOOL event.call = true ∨ wetCallOf DEREGISTER_TOOL event.call = true

end

theorem isFalse_iff (value : Option Json) : isFalse value = true ↔ value = some (.bool false) := by
  unfold isFalse
  split <;> simp_all

theorem answered_ok (run : ToolRun) (parsed : Json) :
    (answered run parsed).ok = true ↔ parsed.get? "ok" ≠ some (.bool false) := by
  rw [Ne, ← isFalse_iff, Bool.not_eq_true]
  unfold answered
  cases hfalse : isFalse (parsed.get? "ok") with
  | false => simp
  | true => cases reportedError parsed <;> simp [notInvoked]

theorem toolOutcome_ok (run : ToolRun) (reply : ToolReply) : (toolOutcome run reply).ok = true ↔ ¬Failed reply := by
  unfold toolOutcome Failed
  cases replyJson reply with
  | error thrown => simp [notInvoked]
  | ok parsed =>
    cases parsed with
    | null => simp [notInvoked]
    | bool value => simp [answered_ok]
    | num value => simp [answered_ok]
    | str value => simp [answered_ok]
    | arr items => simp [answered_ok]
    | obj fields => simp [answered_ok]

def toolEntry (run : ToolRun) (ts : List Nat) (reply : ToolReply) : CostJournalActionEntry :=
  ⟨ts, run.action, (toolOutcome run reply).ok, (toolOutcome run reply).detail, (toolOutcome run reply).error⟩

def toolTrace (run : ToolRun) (ts : List Nat) (reply : ToolReply) : List GuardianEvent :=
  [⟨.callTool run.tool run.arguments, reply⟩, ⟨.writeJournal (.action (toolEntry run ts reply)), ()⟩]

theorem runTool_runs {run : ToolRun} {ts : List Nat} {trace : List GuardianEvent} {ok : Bool} :
    (runTool run ts).Runs trace ok ↔ ∃ reply, trace = toolTrace run ts reply ∧ ok = (toolOutcome run reply).ok := by
  unfold runTool callTool writeJournal
  constructor
  · rintro ⟨reply, rest, rfl, ⟨⟩, rest', rfl, rfl, rfl⟩
    exact ⟨reply, rfl, rfl⟩
  · rintro ⟨reply, rfl, rfl⟩
    exact ⟨reply, _, rfl, (), [], rfl, rfl, rfl⟩

section

variable (opts : RunCostGuardianTickOptions) (decision : GuardianDecision)

/-- The runs of the second tier, with what they say of the wet run. -/
inductive Tier2 : List GuardianEvent → Bool → Prop where
  | skipped : Tier2 [] false
  | previewed (reply : ToolReply) : Tier2 (toolTrace (forcePrivateDryRun opts) decision.ts reply) false
  | wet (dry reply : ToolReply) :
      Tier2 (toolTrace (forcePrivateDryRun opts) decision.ts dry ++ toolTrace forcePrivateWetRun decision.ts reply)
        !(toolOutcome forcePrivateWetRun reply).ok

/-- The runs of the third tier, behind a second tier that has failed or not. -/
inductive Tier3 (failed : Bool) : List GuardianEvent → Prop where
  | skipped : Tier3 failed []
  | previewed (provider : Json) (reply : ToolReply) :
      Tier3 failed (toolTrace (deregisterDryRun opts provider) decision.ts reply)
  | refused (provider : Json) (reply : ToolReply) (entry : CostJournalEntry) :
      Tier3 failed (toolTrace (deregisterDryRun opts provider) decision.ts reply ++ [⟨.writeJournal entry, ()⟩])
  | wet (provider : Json) (dry reply : ToolReply) (went : (toolOutcome (deregisterDryRun opts provider) dry).ok = true)
      (open_ : failed = false) (free : isProtected opts provider = .ok false) :
      Tier3 failed
        (toolTrace (deregisterDryRun opts provider) decision.ts dry ++
          toolTrace (deregisterWetRun provider) decision.ts reply)

variable {opts} {decision}

variable {trace : List GuardianEvent} {failed : Bool}

theorem runTier2Escalation_runs
    (hrun : (runTier2Escalation opts decision).Runs trace failed) : Tier2 opts decision trace failed := by
  unfold runTier2Escalation at hrun
  split at hrun
  · obtain ⟨rfl, rfl⟩ := hrun
    exact .skipped
  rw [Prog.bind_eq, Prog.runs_bind_iff] at hrun
  obtain ⟨first, dryOk, rest, rfl, hdry, hrest⟩ := hrun
  obtain ⟨dry, rfl, rfl⟩ := runTool_runs.mp hdry
  split at hrest
  · obtain ⟨rfl, rfl⟩ := hrest
    rw [append_nil]
    exact .previewed dry
  rw [Prog.bind_eq, Prog.runs_bind_iff] at hrest
  obtain ⟨second, wetOk, rest, rfl, hwet, hrest⟩ := hrest
  obtain ⟨reply, rfl, rfl⟩ := runTool_runs.mp hwet
  obtain ⟨rfl, rfl⟩ := hrest
  rw [append_nil]
  exact .wet dry reply

theorem runTier3Escalation_runs {result : Except TypeError Unit}
    (hrun : (runTier3Escalation opts decision failed).Runs trace result) : Tier3 opts decision failed trace := by
  unfold runTier3Escalation at hrun
  split at hrun
  · obtain ⟨rfl, -⟩ := hrun
    exact .skipped
  rename_i provider htarget
  split at hrun
  · obtain ⟨rfl, -⟩ := hrun
    exact .skipped
  rw [Prog.bind_eq, Prog.runs_bind_iff] at hrun
  obtain ⟨first, dryOk, rest, rfl, hdry, hrest⟩ := hrun
  obtain ⟨dry, rfl, rfl⟩ := runTool_runs.mp hdry
  split at hrest
  · obtain ⟨rfl, -⟩ := hrest
    rw [append_nil]
    exact .previewed provider dry
  rename_i hgates
  simp only [Bool.or_eq_true, not_or, Bool.not_eq_true, Bool.not_eq_false'] at hgates
  obtain ⟨⟨hwent, -⟩, hopen⟩ := hgates
  split at hrest
  · obtain ⟨rfl, -⟩ := hrest
    rw [append_nil]
    exact .previewed provider dry
  · obtain ⟨⟨⟩, rest, rfl, rfl, -⟩ := hrest
    exact .refused provider dry _
  rename_i hfree
  rw [Prog.bind_eq, Prog.runs_bind_iff] at hrest
  obtain ⟨second, wetOk, rest, rfl, hwet, hrest⟩ := hrest
  obtain ⟨reply, rfl, rfl⟩ := runTool_runs.mp hwet
  obtain ⟨rfl, -⟩ := hrest
  rw [append_nil]
  exact .wet provider dry reply hwent hopen hfree

/-- No call of the trace has `dryRun` off. -/
def Quiet (trace : List GuardianEvent) : Prop := ∀ event ∈ trace, wetCall event.call = false

theorem quiet_nil : Quiet [] := fun _ hmem => absurd hmem not_mem_nil

variable {first rest : List GuardianEvent}

theorem Quiet.append (hfirst : Quiet first) (hrest : Quiet rest) :
    Quiet (first ++ rest) := by
  intro event hmem
  obtain hmem | hmem := mem_append.mp hmem
  · exact hfirst event hmem
  · exact hrest event hmem

theorem quiet_single {call : GuardianCall} {reply : GuardianReply call} (hcall : wetCall call = false) :
    Quiet [⟨call, reply⟩] := by
  intro event hmem
  rw [mem_singleton.mp hmem]
  exact hcall

theorem snapshotOf_runs {days : Nat} {result : Except Thrown Json}
    (hrun : (snapshotOf days).Runs trace result) : Quiet trace := by
  obtain ⟨reply, rest, rfl, rfl, -⟩ := hrun
  exact quiet_single rfl

theorem weeklySnapshot_runs {result : Except Thrown (Option Json)}
    (hrun : (weeklySnapshot opts).Runs trace result) : Quiet trace := by
  unfold weeklySnapshot at hrun
  split at hrun
  · obtain ⟨rfl, -⟩ := hrun
    exact quiet_nil
  rw [Prog.bind_eq, Prog.runs_bind_iff] at hrun
  obtain ⟨first, value, rest, rfl, hfirst, rfl, -⟩ := hrun
  rw [append_nil]
  exact snapshotOf_runs hfirst

theorem postWebhookIfApplicable_runs {result : Unit}
    (hrun : (postWebhookIfApplicable opts decision).Runs trace result) : Quiet trace := by
  unfold postWebhookIfApplicable at hrun
  split at hrun
  · obtain ⟨rfl, -⟩ := hrun
    exact quiet_nil
  split at hrun
  · obtain ⟨rfl, -⟩ := hrun
    exact quiet_nil
  obtain ⟨outcome, rest, rfl, hrest⟩ := hrun
  apply (quiet_single rfl).append
  simp only at hrest
  split at hrest
  · obtain ⟨rfl, -⟩ := hrest
    exact quiet_nil
  · obtain ⟨⟨⟩, rest, rfl, rfl, -⟩ := hrest
    exact quiet_single rfl

def Tiered (opts : RunCostGuardianTickOptions) (trace : List GuardianEvent) : Prop :=
  ∃ quiet, Quiet quiet ∧ (trace = quiet ∨ ∃ decision failed second third,
    trace = quiet ++ (second ++ third) ∧ Tier2 opts decision second failed ∧ Tier3 opts decision failed third)

theorem Tiered.behind {quiet : List GuardianEvent} (htiered : Tiered opts trace) (hquiet : Quiet quiet) :
    Tiered opts (quiet ++ trace) := by
  obtain ⟨later, hlater, rfl | ⟨decision, failed, second, third, rfl, hsecond, hthird⟩⟩ := htiered
  · exact ⟨quiet ++ trace, hquiet.append hlater, .inl rfl⟩
  · refine ⟨quiet ++ later, hquiet.append hlater, .inr ⟨decision, failed, second, third, ?_, hsecond, hthird⟩⟩
    rw [append_assoc]

theorem Quiet.tiered (hquiet : Quiet trace) : Tiered opts trace := ⟨trace, hquiet, .inl rfl⟩

variable {result : Except Thrown GuardianDecision}

theorem escalate_runs (hrun : (escalate opts decision).Runs trace result) : Tiered opts trace := by
  unfold escalate at hrun
  split at hrun
  · obtain ⟨rfl, -⟩ := hrun
    exact quiet_nil.tiered
  rw [Prog.bind_eq, Prog.runs_bind_iff] at hrun
  obtain ⟨second, failed, rest, rfl, hsecond, hrest⟩ := hrun
  rw [Prog.bind_eq, Prog.runs_bind_iff] at hrest
  obtain ⟨third, outcome, rest, rfl, hthird, hrest⟩ := hrest
  have hend : rest = [] := by
    split at hrest
    · exact hrest.1
    · exact hrest.1
  rw [hend, append_nil]
  exact ⟨[], quiet_nil, .inr ⟨decision, failed, second, third, rfl, runTier2Escalation_runs hsecond,
    runTier3Escalation_runs hthird⟩⟩

theorem journalTick_runs {result : Unit} (hrun : (journalTick opts decision).Runs trace result) : Quiet trace := by
  unfold journalTick at hrun
  split at hrun
  · obtain ⟨rfl, -⟩ := hrun
    exact quiet_nil
  · obtain ⟨⟨⟩, rest, rfl, rfl, -⟩ := hrun
    exact quiet_single rfl

theorem actOnDecision_runs (hrun : (actOnDecision opts decision).Runs trace result) : Tiered opts trace := by
  unfold actOnDecision at hrun
  rw [Prog.bind_eq, Prog.runs_bind_iff] at hrun
  obtain ⟨first, _, rest, rfl, hfirst, hrest⟩ := hrun
  rw [Prog.bind_eq, Prog.runs_bind_iff] at hrest
  obtain ⟨webhook, _, rest, rfl, hwebhook, hrest⟩ := hrest
  exact ((escalate_runs hrest).behind (postWebhookIfApplicable_runs hwebhook)).behind (journalTick_runs hfirst)

theorem runCostGuardianTick_runs (hrun : (runCostGuardianTick opts).Runs trace result) : Tiered opts trace := by
  unfold runCostGuardianTick at hrun
  rw [Prog.bind_eq, Prog.runs_bind_iff] at hrun
  obtain ⟨first, daily, rest, rfl, hdaily, hrest⟩ := hrun
  refine Tiered.behind ?_ (snapshotOf_runs hdaily)
  split at hrest
  · obtain ⟨rfl, -⟩ := hrest
    exact quiet_nil.tiered
  rw [Prog.bind_eq, Prog.runs_bind_iff] at hrest
  obtain ⟨second, weekly, rest, rfl, hweekly, hrest⟩ := hrest
  refine Tiered.behind ?_ (weeklySnapshot_runs hweekly)
  split at hrest
  · obtain ⟨rfl, -⟩ := hrest
    exact quiet_nil.tiered
  split at hrest
  · obtain ⟨rfl, -⟩ := hrest
    exact quiet_nil.tiered
  · exact actOnDecision_runs hrest

theorem isWet_setDefaultProfileArguments (dryRun : Bool) : isWet (setDefaultProfileArguments dryRun) = !dryRun := by
  cases dryRun <;> rfl

theorem isWet_deregisterArguments (provider : Json) (dryRun : Bool) :
    isWet (deregisterArguments provider dryRun) = !dryRun := by
  cases dryRun <;> rfl

theorem tools_differ : FORCE_PRIVATE_TOOL ≠ DEREGISTER_TOOL := by decide +kernel

theorem wetCall_of_wetCallOf {tool : List Nat} {call : GuardianCall} (hwet : wetCallOf tool call = true) :
    wetCall call = true := by
  cases call with
  | callTool name arguments => exact (Bool.and_eq_true _ _ ▸ hwet).2
  | writeJournal entry => cases hwet
  | postGuardianWebhook url decision => cases hwet

theorem countP_toolTrace (tool : List Nat) (run : ToolRun) (ts : List Nat) (reply : ToolReply) :
    (toolTrace run ts reply).countP (fun event => wetCallOf tool event.call) =
      if run.tool = tool ∧ isWet run.arguments = true then 1 else 0 := by
  simp [toolTrace, countP_cons, wetCallOf]

theorem Quiet.countP_eq_zero (hquiet : Quiet trace) (tool : List Nat) :
    trace.countP (fun event => wetCallOf tool event.call) = 0 := by
  rw [List.countP_eq_zero]
  intro event hmem hwet
  have hcall := wetCall_of_wetCallOf hwet
  rw [hquiet event hmem] at hcall
  cases hcall

theorem mem_toolTrace {run : ToolRun} {ts : List Nat} {reply reply' : ToolReply} {name : List Nat} {arguments : Json}
    (hmem : (⟨.callTool name arguments, reply'⟩ : GuardianEvent) ∈ toolTrace run ts reply) :
    name = run.tool ∧ arguments = run.arguments ∧ reply' = reply := by
  obtain heq | hmem := mem_cons.mp hmem
  · cases heq
    exact ⟨rfl, rfl, rfl⟩
  · cases mem_singleton.mp hmem

theorem justified_of_no_deregister {past : List GuardianEvent}
    (hnone : trace.countP (fun event => wetCallOf DEREGISTER_TOOL event.call) = 0) :
    Justified (Permitted opts) past trace := by
  rw [justified_iff_split]
  rintro before event after rfl hwet
  have hmem : event ∈ before ++ event :: after := by simp
  exact absurd hwet (countP_eq_zero.mp hnone event hmem)

theorem Tier2.countP_deregister (h : Tier2 opts decision trace failed) :
    trace.countP (fun event => wetCallOf DEREGISTER_TOOL event.call) = 0 := by
  have hdry : (forcePrivateDryRun opts).tool ≠ DEREGISTER_TOOL := tools_differ
  have hwet : forcePrivateWetRun.tool ≠ DEREGISTER_TOOL := tools_differ
  cases h with
  | skipped => rfl
  | previewed reply => rw [countP_toolTrace, if_neg fun h => hdry h.1]
  | wet dry reply =>
    rw [countP_append, countP_toolTrace, countP_toolTrace, if_neg fun h => hdry h.1, if_neg fun h => hwet h.1]

theorem Tier2.countP_forcePrivate (h : Tier2 opts decision trace failed) :
    trace.countP (fun event => wetCallOf FORCE_PRIVATE_TOOL event.call) ≤ 1 := by
  have hdry : isWet (forcePrivateDryRun opts).arguments = false := isWet_setDefaultProfileArguments true
  cases h with
  | skipped => exact Nat.zero_le 1
  | previewed reply =>
    rw [countP_toolTrace]
    split <;> omega
  | wet dry reply =>
    rw [countP_append, countP_toolTrace, countP_toolTrace, if_neg fun h => by rw [hdry] at h; cases h.2]
    split <;> omega

theorem Tier3.countP_forcePrivate (h : Tier3 opts decision failed trace) :
    trace.countP (fun event => wetCallOf FORCE_PRIVATE_TOOL event.call) = 0 := by
  have hdry : ∀ provider, (deregisterDryRun opts provider).tool ≠ FORCE_PRIVATE_TOOL := fun _ => tools_differ.symm
  have hwet : ∀ provider, (deregisterWetRun provider).tool ≠ FORCE_PRIVATE_TOOL := fun _ => tools_differ.symm
  cases h with
  | skipped => rfl
  | previewed provider reply => rw [countP_toolTrace, if_neg fun h => hdry provider h.1]
  | refused provider reply entry =>
    rw [countP_append, countP_toolTrace, if_neg fun h => hdry provider h.1]
    rfl
  | wet provider dry reply =>
    rw [countP_append, countP_toolTrace, countP_toolTrace, if_neg fun h => hdry provider h.1,
      if_neg fun h => hwet provider h.1]

theorem Tier3.countP_deregister (h : Tier3 opts decision failed trace) :
    trace.countP (fun event => wetCallOf DEREGISTER_TOOL event.call) ≤ 1 := by
  have hdry : ∀ provider, isWet (deregisterDryRun opts provider).arguments = false := fun provider =>
    isWet_deregisterArguments provider true
  cases h with
  | skipped => exact Nat.zero_le 1
  | previewed provider reply =>
    rw [countP_toolTrace]
    split <;> omega
  | refused provider reply entry =>
    rw [countP_append, countP_toolTrace, if_neg fun h => by rw [hdry] at h; cases h.2]
    exact Nat.zero_le 1
  | wet provider dry reply =>
    rw [countP_append, countP_toolTrace, countP_toolTrace, if_neg fun h => by rw [hdry] at h; cases h.2]
    split <;> omega

theorem Quiet.noFailedForcePrivate (hquiet : Quiet trace) : NoFailedForcePrivate trace := by
  intro arguments reply hmem hwet
  have hcall : isWet arguments = false := hquiet _ hmem
  rw [hcall] at hwet
  cases hwet

theorem NoFailedForcePrivate.append (hfirst : NoFailedForcePrivate first)
    (hrest : NoFailedForcePrivate rest) : NoFailedForcePrivate (first ++ rest) := by
  intro arguments reply hmem
  obtain hmem | hmem := mem_append.mp hmem
  · exact hfirst arguments reply hmem
  · exact hrest arguments reply hmem

theorem noFailedForcePrivate_toolTrace {run : ToolRun} {ts : List Nat} {reply : ToolReply}
    (hfine : run.tool = FORCE_PRIVATE_TOOL → isWet run.arguments = true → ¬Failed reply) :
    NoFailedForcePrivate (toolTrace run ts reply) := by
  intro arguments reply' hmem hwet
  obtain ⟨htool, rfl, rfl⟩ := mem_toolTrace hmem
  exact hfine htool.symm hwet

theorem Tier2.noFailedForcePrivate (h : Tier2 opts decision trace failed)
    (hopen : failed = false) : NoFailedForcePrivate trace := by
  have hdry : ∀ reply, NoFailedForcePrivate (toolTrace (forcePrivateDryRun opts) decision.ts reply) := fun reply =>
    noFailedForcePrivate_toolTrace fun _ hwet => by
      rw [show isWet (forcePrivateDryRun opts).arguments = false from isWet_setDefaultProfileArguments true] at hwet
      cases hwet
  cases h with
  | skipped => exact quiet_nil.noFailedForcePrivate
  | previewed reply => exact hdry reply
  | wet dry reply =>
    apply (hdry dry).append
    apply noFailedForcePrivate_toolTrace
    intro _ _
    rw [← toolOutcome_ok forcePrivateWetRun]
    simpa using hopen

theorem isProtected_false {provider : Json} (hfree : isProtected opts provider = .ok false) : Unprotected opts provider := by
  rintro text rfl name hname heq
  unfold isProtected at hfree
  split at hfree
  · rename_i hnone
    rw [hnone] at hname
    cases hname
  · rename_i heq' _
    cases heq'
    have hany := Except.ok.inj hfree
    rw [any_eq_false] at hany
    exact hany name hname (by simpa using heq)
  · cases hfree

theorem Tier3.justified {past : List GuardianEvent} (h : Tier3 opts decision failed trace)
    (hpast : failed = false → NoFailedForcePrivate past) : Justified (Permitted opts) past trace := by
  have hdry : ∀ provider reply past, Justified (Permitted opts) past
      (toolTrace (deregisterDryRun opts provider) decision.ts reply) := by
    intro provider reply past
    apply justified_of_no_deregister
    rw [countP_toolTrace, if_neg fun h => by
      rw [show isWet (deregisterDryRun opts provider).arguments = false from isWet_deregisterArguments provider true] at h
      cases h.2]
  cases h with
  | skipped => trivial
  | previewed provider reply => exact hdry provider reply past
  | refused provider reply entry => exact justified_append.mpr ⟨hdry provider reply past, justified_of_no_deregister rfl⟩
  | wet provider dry reply went open_ free =>
    refine justified_append.mpr ⟨hdry provider dry past, fun _ => ?_, justified_of_no_deregister rfl⟩
    refine ⟨provider, rfl, ?_, isProtected_false free, ?_⟩
    · exact ⟨past, dry, _, _, rfl, (toolOutcome_ok _ dry).mp went, mem_singleton.mpr rfl, rfl, went⟩
    apply (hpast open_).append
    apply noFailedForcePrivate_toolTrace
    intro htool
    exact absurd htool tools_differ.symm

def WetOnly (tool : List Nat) (trace : List GuardianEvent) : Prop :=
  ∀ event ∈ trace, wetCall event.call = true → wetCallOf tool event.call = true

theorem WetOnly.append {tool : List Nat} (hfirst : WetOnly tool first)
    (hrest : WetOnly tool rest) : WetOnly tool (first ++ rest) := by
  intro event hmem
  obtain hmem | hmem := mem_append.mp hmem
  · exact hfirst event hmem
  · exact hrest event hmem

theorem wetOnly_toolTrace (run : ToolRun) (ts : List Nat) (reply : ToolReply) :
    WetOnly run.tool (toolTrace run ts reply) := by
  intro event hmem hwet
  obtain rfl | hmem := mem_cons.mp hmem
  · simpa [wetCallOf, wetCall] using hwet
  · rw [mem_singleton.mp hmem] at hwet
    cases hwet

theorem Quiet.wetOnly (hquiet : Quiet trace) (tool : List Nat) : WetOnly tool trace := by
  intro event hmem hwet
  rw [hquiet event hmem] at hwet
  cases hwet

theorem Tier2.wetOnly (h : Tier2 opts decision trace failed) :
    WetOnly FORCE_PRIVATE_TOOL trace := by
  cases h with
  | skipped => exact quiet_nil.wetOnly _
  | previewed reply => exact wetOnly_toolTrace (forcePrivateDryRun opts) decision.ts reply
  | wet dry reply =>
    exact (wetOnly_toolTrace (forcePrivateDryRun opts) decision.ts dry).append
      (wetOnly_toolTrace forcePrivateWetRun decision.ts reply)

theorem Tier3.wetOnly (h : Tier3 opts decision failed trace) :
    WetOnly DEREGISTER_TOOL trace := by
  cases h with
  | skipped => exact quiet_nil.wetOnly _
  | previewed provider reply => exact wetOnly_toolTrace (deregisterDryRun opts provider) decision.ts reply
  | refused provider reply entry =>
    exact (wetOnly_toolTrace (deregisterDryRun opts provider) decision.ts reply).append ((quiet_single rfl).wetOnly _)
  | wet provider dry reply =>
    exact (wetOnly_toolTrace (deregisterDryRun opts provider) decision.ts dry).append
      (wetOnly_toolTrace (deregisterWetRun provider) decision.ts reply)

theorem Tiered.safe (htiered : Tiered opts trace) : Safe opts trace := by
  obtain ⟨quiet, hquiet, rfl | ⟨decision, failed, second, third, rfl, hsecond, hthird⟩⟩ := htiered
  · refine ⟨justified_of_no_deregister (hquiet.countP_eq_zero _), ?_, ?_,
      fun event hmem hwet => .inl (hquiet.wetOnly _ event hmem hwet)⟩
    · rw [hquiet.countP_eq_zero]
      exact Nat.zero_le 1
    · rw [hquiet.countP_eq_zero]
      exact Nat.zero_le 1
  have hjustified : Justified (Permitted opts) [] (quiet ++ (second ++ third)) := by
    refine justified_append.mpr ⟨justified_of_no_deregister (hquiet.countP_eq_zero _), ?_⟩
    refine justified_append.mpr ⟨justified_of_no_deregister hsecond.countP_deregister, ?_⟩
    apply hthird.justified
    intro hopen
    exact hquiet.noFailedForcePrivate.append (hsecond.noFailedForcePrivate hopen)
  refine ⟨hjustified, ?_, ?_, ?_⟩
  · rw [countP_append, countP_append, hquiet.countP_eq_zero, hthird.countP_forcePrivate, Nat.zero_add]
    exact hsecond.countP_forcePrivate
  · rw [countP_append, countP_append, hquiet.countP_eq_zero, hsecond.countP_deregister, Nat.zero_add,
      Nat.zero_add]
    exact hthird.countP_deregister
  intro event hmem hwet
  obtain hmem | hmem := mem_append.mp hmem
  · exact .inl (hquiet.wetOnly _ event hmem hwet)
  obtain hmem | hmem := mem_append.mp hmem
  · exact .inl (hsecond.wetOnly event hmem hwet)
  · exact .inr (hthird.wetOnly event hmem hwet)

end

/-- Every run of a tick is safe, whatever its calls come back with. -/
theorem runCostGuardianTick_safe (opts : RunCostGuardianTickOptions) (trace : List GuardianEvent)
    (result : Except Thrown GuardianDecision) (hrun : (runCostGuardianTick opts).Runs trace result) : Safe opts trace :=
  (runCostGuardianTick_runs hrun).safe

section

def answerOf (value : Json) : ToolReply :=
  .returned (some (.obj [(units "content", .arr [.obj [(units "type", .str (units "text")),
    (units "text", .str (stringify value))]])]))

def bothFlags : RunCostGuardianTickOptions where
  config := { budget := { dailyUsd := some 10 }, autoForcePrivate := true, autoDeregister := true }
  ts := units "2026-11-01T00:00:00.000Z"
  toLowerCase := id

/-- The budget is spent, and every run of a tool goes well. -/
def overspent (_past : List GuardianEvent) : (call : GuardianCall) → GuardianReply call
  | .callTool name _ =>
    if name = units "nova.ops.cost.snapshot" then
      answerOf (.obj [(units "totalEstimatedCostUsd", .num (.ofNat 10)),
        (units "byProvider", .arr [.obj [(units "key", .str (units "openrouter-paid"))]])])
    else answerOf (.obj [(units "ok", .bool true)])
  | .writeJournal _ => ()
  | .postGuardianWebhook _ _ => WebhookOutcome.ok (.ofNat 200)

theorem runCostGuardianTick_safe_bothFlags :
    Safe bothFlags ((runCostGuardianTick bothFlags).answeredBy overspent []).1 :=
  runCostGuardianTick_safe bothFlags _ _ (Prog.answeredBy_nil_runs overspent (runCostGuardianTick bothFlags))

/-- With both flags set a tick makes two calls with `dryRun` off. -/
theorem two_wet_runs_in_a_tick :
    ¬∀ (opts : RunCostGuardianTickOptions) (trace : List GuardianEvent) (result : Except Thrown GuardianDecision),
      (runCostGuardianTick opts).Runs trace result → trace.countP (fun event => wetCall event.call) ≤ 1 := by
  intro h
  have hrun := Prog.answeredBy_nil_runs overspent (runCostGuardianTick bothFlags)
  exact absurd (h bothFlags _ _ hrun) (by decide +kernel)

end

end llamactl.costguardian
