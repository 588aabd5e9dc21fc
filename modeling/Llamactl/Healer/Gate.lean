import Llamactl.Healer.Remediate

open effect js List

namespace llamactl.healer

/-! Which plans auto mode carries out. -/

def suffixesOf : Nat → List (List Nat)
  | 1 => TIER_1_SUFFIXES
  | 2 => TIER_2_SUFFIXES
  | 3 => TIER_3_SUFFIXES
  | _ => []

def Contains (tier : Nat) (name : List Nat) : Prop := ∃ suffix ∈ suffixesOf tier, includesText name suffix = true

def NamesTool (step : Json) (name : List Nat) : Prop := stepTool step = .ok (some (.str name))

def RunbookUpTo (threshold : Nat) (name : List Nat) : Prop :=
  name ∈ RUNBOOKS ∧ (RUNBOOK_TIERS.lookup name).getD 2 ≤ threshold

/-- A tool with a suffix of the lower tiers and none of the higher ones. -/
def ToolUpTo (threshold : Nat) (name : List Nat) : Prop :=
  (∃ tier, tier ≤ threshold ∧ Contains tier name) ∧ ∀ tier, threshold < tier → ¬Contains tier name

/-- A step that the gate lets pass: the table of runbooks also answers to the members of `Object.prototype`, and the
scans to arrays. -/
inductive ClearedStep (threshold : Nat) (step : Json) : Prop where
  | runbook (name : List Nat) (named : NamesTool step name) (cleared : RunbookUpTo threshold name)
  | tool (name : List Nat) (named : NamesTool step name) (cleared : ToolUpTo threshold name)
  | inherited (name : List Nat) (named : NamesTool step name) (member : name ∈ objectPrototype)
  | array (items : List Json) (named : stepTool step = .ok (some (.arr items)))

/-- A step whose tool the tables do not classify. -/
inductive UnclassifiedStep (step : Json) : Prop where
  | name (name : List Nat) (named : NamesTool step name) (member : name ∉ objectPrototype) (runbook : name ∉ RUNBOOKS)
      (verbs : ∀ tier, ¬Contains tier name)
  | shape (noName : ∀ name, ¬NamesTool step name) (noArray : ∀ items, stepTool step ≠ .ok (some (.arr items)))

/-- The plan was turned down before any call, by a refusal in the journal or, where a step names no tool by a text, by
a `TypeError`. -/
inductive Refused (plan : PlanLike) (id : String) (trace : List HealerEvent) (result : Except TypeError Unit) : Prop where
  | journaled (reason : RefusedReason) (refusedSteps : List RefusedStep)
      (entry : trace.map Event.call = [.writeJournal (.refused id reason refusedSteps)]) (ends : result = .ok ())
  | aborted (step : Json) (mem : step ∈ plan.steps) (noName : ∀ name, ¬NamesTool step name) (silent : trace = [])
      (ends : result = .error .typeError)

theorem Refused.no_call {plan : PlanLike} {id : String} {trace : List HealerEvent} {result : Except TypeError Unit}
    (h : Refused plan id trace result) : ∀ event ∈ trace, event.call.acts = false := by
  intro event hevent
  cases h with
  | journaled reason refusedSteps entry ends =>
    have hcall : event.call ∈ trace.map Event.call := mem_map_of_mem hevent
    rw [entry, mem_singleton] at hcall
    rw [hcall]
    rfl
  | aborted step mem noName silent ends =>
    rw [silent] at hevent
    cases hevent

section

variable {threshold : Nat} {name : List Nat} {tool : Option Json} {tier : TierValue}

theorem runbook_tiered : ∀ key ∈ RUNBOOKS, (RUNBOOK_TIERS.lookup key).isSome := by decide +kernel

/-- A key that the lookups of `tierOf` do not find. -/
def Untabled (key : List Nat) : Prop := RUNBOOK_TIERS.lookup key = none ∧ key ∉ objectPrototype

theorem inRunbooks_untabled {key : List Nat} (h : Untabled key) : inRunbooks key = false := by
  obtain ⟨hlookup, hmember⟩ := h
  unfold inRunbooks
  rw [Bool.or_eq_false_iff]
  refine ⟨?_, by simpa using hmember⟩
  by_contra hcontains
  have hsome := runbook_tiered key (by simpa using hcontains)
  rw [hlookup] at hsome
  cases hsome

theorem tiered_runbook : ∀ entry ∈ RUNBOOK_TIERS, entry.1 ∈ RUNBOOKS := by decide +kernel

theorem scan_str (suffixes : List (List Nat)) :
    scan suffixes (some (.str name)) = .ok (suffixes.any fun suffix => includesText name suffix) := by
  unfold scan
  induction suffixes with
  | nil => rfl
  | cons suffix suffixes ih =>
    rw [anyM_cons, any_cons, ih]
    cases hfirst : includesText name suffix <;> simp [includes, hfirst, bind, Except.bind, pure, Except.pure]

theorem scan_error {suffixes : List (List Nat)} (hne : suffixes ≠ [])
    (hincludes : ∀ part, includes part tool = .error .typeError) : scan suffixes tool = .error .typeError := by
  cases suffixes with
  | nil => exact absurd rfl hne
  | cons suffix suffixes =>
    unfold scan
    rw [anyM_cons, hincludes]
    rfl

theorem contains_iff (tier : Nat) :
    (suffixesOf tier).any (fun suffix => includesText name suffix) = true ↔ Contains tier name := any_eq_true

theorem Contains.le {tier : Nat} (h : Contains tier name) : tier ≤ 3 := by
  obtain ⟨suffix, hsuffix, -⟩ := h
  unfold suffixesOf at hsuffix
  split at hsuffix <;> first | omega | cases hsuffix

def tierOfName (name : List Nat) : TierValue :=
  match RUNBOOK_TIERS.lookup name with
  | some tier => .tier tier
  | none =>
    if objectPrototype.contains name then .inherited name
    else if (suffixesOf 3).any fun suffix => includesText name suffix then .tier 3
    else if (suffixesOf 2).any fun suffix => includesText name suffix then .tier 2
    else if (suffixesOf 1).any fun suffix => includesText name suffix then .tier 1
    else .tier 3

theorem tierOf_str : tierOf (some (.str name)) = .ok (tierOfName name) := by
  unfold tierOf tierOfName
  simp only [toPropertyKey, Json.toText, bind, Except.bind, pure, Except.pure]
  cases htier : RUNBOOK_TIERS.lookup name with
  | some tier => rfl
  | none =>
    simp only
    split
    · rfl
    next hmember =>
      have hrunbook : inRunbooks name = false := inRunbooks_untabled ⟨htier, by simpa using hmember⟩
      rw [if_neg (by simp [hrunbook]), scan_str, scan_str, scan_str]
      simp only [suffixesOf]
      cases TIER_3_SUFFIXES.any fun suffix => includesText name suffix <;>
        cases TIER_2_SUFFIXES.any fun suffix => includesText name suffix <;>
          cases TIER_1_SUFFIXES.any fun suffix => includesText name suffix <;> rfl

theorem tierOfName_cleared (ht : threshold < 3) (hpass : (tierOfName name).above threshold = false) :
    RunbookUpTo threshold name ∨ ToolUpTo threshold name ∨ name ∈ objectPrototype := by
  unfold tierOfName at hpass
  cases htier : RUNBOOK_TIERS.lookup name with
  | some tier =>
    left
    have hmem : name ∈ RUNBOOKS := by
      obtain ⟨before, after, hsplit, -⟩ := lookup_eq_some_iff.mp htier
      exact tiered_runbook (name, tier) (by simp [hsplit])
    simp only [htier, TierValue.above, decide_eq_false_iff_not, not_lt] at hpass
    exact ⟨hmem, by simpa [htier] using hpass⟩
  | none =>
    right
    simp only [htier] at hpass
    split at hpass
    next hmember => exact .inr (by simpa using hmember)
    · left
      split at hpass
      · simp [TierValue.above] at hpass
        omega
      next hthree =>
        rw [contains_iff] at hthree
        split at hpass
        next htwo =>
          rw [contains_iff] at htwo
          simp only [TierValue.above, decide_eq_false_iff_not, not_lt] at hpass
          refine ⟨⟨2, hpass, htwo⟩, ?_⟩
          intro tier hlt hcontains
          have hlast : tier = 3 := by
            have hle := hcontains.le
            omega
          exact hthree (hlast ▸ hcontains)
        next htwo =>
          rw [contains_iff] at htwo
          split at hpass
          next hone =>
            rw [contains_iff] at hone
            simp only [TierValue.above, decide_eq_false_iff_not, not_lt] at hpass
            refine ⟨⟨1, hpass, hone⟩, ?_⟩
            intro tier hlt hcontains
            have hhigher : tier = 2 ∨ tier = 3 := by
              have hle := hcontains.le
              omega
            obtain rfl | rfl := hhigher
            · exact htwo hcontains
            · exact hthree hcontains
          · simp [TierValue.above] at hpass
            omega

theorem decimalText_head (double : ℚ) : ∃ first rest, decimalText double = first :: rest ∧ first < 58 := by
  unfold decimalText
  obtain ⟨value, point, hshortest⟩ : ∃ value point, shortestDigits double = (natDigits value, point) := ⟨_, _, rfl⟩
  simp only [hshortest]
  cases hdigits : natDigits value with
  | nil => exact absurd hdigits (natDigits_ok value).1
  | cons first rest =>
    split
    · exact ⟨48 + first.val, _, rfl, by omega⟩
    split
    next hpoint =>
      obtain ⟨place, hplace⟩ : ∃ place, point.toNat = place + 1 := ⟨point.toNat - 1, by omega⟩
      rw [hplace]
      exact ⟨48 + first.val, _, rfl, by omega⟩
    · split
      · exact ⟨0x30, _, rfl, by omega⟩
      · exact ⟨48 + first.val, _, rfl, by omega⟩

theorem numberText_head (n : Numeral) : ∃ first rest, n.numberText = first :: rest ∧ first < 95 := by
  have hsigned : ∀ text : List Nat, (∃ first rest, text = first :: rest ∧ first < 95) →
      ∃ first rest, (if n.negative then [0x2D] else []) ++ text = first :: rest ∧ first < 95 := by
    intro text htext
    cases n.negative with
    | true => exact ⟨0x2D, text, rfl, by omega⟩
    | false => exact htext
  unfold Numeral.numberText
  split
  · exact hsigned _ ⟨0x49, units "nfinity", rfl, by omega⟩
  next double _ =>
    split
    · exact ⟨0x30, [], rfl, by omega⟩
    · obtain ⟨first, rest, htext, hfirst⟩ := decimalText_head double
      exact hsigned _ ⟨first, rest, htext, by omega⟩

theorem untabled_of_head {key rest : List Nat} {first : Nat} (hkey : key = first :: rest) (hfirst : first < 95) :
    Untabled key := by
  constructor
  · rw [lookup_eq_none_iff]
    have hheads : ∀ entry ∈ RUNBOOK_TIERS, ∀ unit ∈ entry.1.head?, 95 ≤ unit := by decide +kernel
    intro entry hentry
    have hhead := hheads entry hentry
    rw [bne_iff_ne]
    intro heq
    rw [← heq, hkey] at hhead
    have hle := hhead first rfl
    omega
  intro hmem
  have hheads : ∀ member ∈ objectPrototype, ∀ unit ∈ member.head?, 95 ≤ unit := by decide +kernel
  have hhead := hheads key hmem
  rw [hkey] at hhead
  have hle := hhead first rfl
  omega

/-- A tool that is no text and no array throws at the first scan, if not before. -/
theorem tierOf_error (hincludes : ∀ part, includes part tool = .error .typeError)
    (hkey : ∀ key, toPropertyKey tool = .ok key → Untabled key) : tierOf tool = .error .typeError := by
  unfold tierOf
  cases hread : toPropertyKey tool with
  | error error => rfl
  | ok key =>
    obtain ⟨hlookup, hmember⟩ := hkey key hread
    have hrunbook : inRunbooks key = false := inRunbooks_untabled ⟨hlookup, hmember⟩
    have hscan : scan TIER_3_SUFFIXES tool = .error .typeError := scan_error (by decide) hincludes
    simp [bind, Except.bind, hlookup, hmember, hrunbook, hscan]

theorem tierOf_noText (htext : ∀ name, tool ≠ some (.str name)) (harray : ∀ items, tool ≠ some (.arr items)) :
    tierOf tool = .error .typeError := by
  cases tool with
  | none => exact tierOf_error (fun _ => rfl) fun key hkey => by cases hkey; exact ⟨by decide, by decide +kernel⟩
  | some value =>
    cases value with
    | null => exact tierOf_error (fun _ => rfl) fun key hkey => by cases hkey; exact ⟨by decide, by decide +kernel⟩
    | bool flag =>
      refine tierOf_error (fun _ => rfl) fun key hkey => ?_
      cases flag <;> (cases hkey; exact ⟨by decide, by decide +kernel⟩)
    | num n =>
      refine tierOf_error (fun _ => rfl) fun key hkey => ?_
      obtain ⟨first, rest, htext, hfirst⟩ := numberText_head n
      cases hkey
      exact untabled_of_head htext hfirst
    | str name => exact absurd rfl (htext name)
    | arr items => exact absurd rfl (harray items)
    | obj fields =>
      refine tierOf_error (fun _ => rfl) fun key hkey => ?_
      rw [toPropertyKey, Json.toText] at hkey
      split at hkey
      · cases hkey
      · cases hkey
        exact ⟨by decide, by decide +kernel⟩

end

section

variable {threshold index : Nat} {steps : List Json} {step : Json} {plan : PlanLike}

theorem refuseSteps_cons (step : Json) (steps : List Json) :
    refuseSteps threshold index (step :: steps) = (do
      let tool ← stepTool step
      let tier ← tierOf tool
      let refused ← refuseSteps threshold (index + 1) steps
      return if tier.above threshold then ⟨index, tool, tier⟩ :: refused else refused) := rfl

theorem refuseSteps_nil (h : refuseSteps threshold index steps = .ok []) :
    ∀ step ∈ steps, ∃ tool tier, stepTool step = .ok tool ∧ tierOf tool = .ok tier ∧ tier.above threshold = false := by
  induction steps generalizing index with
  | nil => simp
  | cons first steps ih =>
    rw [refuseSteps_cons] at h
    cases htool : stepTool first with
    | error error => simp [htool, bind, Except.bind] at h
    | ok tool =>
      cases htier : tierOf tool with
      | error error => simp [htool, htier, bind, Except.bind] at h
      | ok tier =>
        cases hrest : refuseSteps threshold (index + 1) steps with
        | error error => simp [htool, htier, hrest, bind, Except.bind] at h
        | ok refused =>
          simp only [htool, htier, hrest, bind, Except.bind, pure, Except.pure, Except.ok.injEq] at h
          have hpass : tier.above threshold = false := by
            by_contra habove
            rw [if_pos (by simpa using habove)] at h
            cases h
          rw [if_neg (by simp [hpass])] at h
          intro step hstep
          rcases mem_cons.mp hstep with rfl | hmem
          · exact ⟨tool, tier, htool, htier, hpass⟩
          · exact ih (h ▸ hrest) step hmem

theorem refuseSteps_error {error : TypeError} (h : refuseSteps threshold index steps = .error error) :
    ∃ step ∈ steps, ∀ name, ¬NamesTool step name := by
  induction steps generalizing index with
  | nil => cases h
  | cons first steps ih =>
    by_cases hnamed : ∃ name, NamesTool first name
    · obtain ⟨name, htool⟩ := hnamed
      rw [refuseSteps_cons, htool] at h
      cases hrest : refuseSteps threshold (index + 1) steps with
      | error error =>
        obtain ⟨step, hmem, hstep⟩ := ih hrest
        exact ⟨step, mem_cons_of_mem _ hmem, hstep⟩
      | ok refused => simp [tierOf_str, hrest, bind, Except.bind, pure, Except.pure] at h
    · exact ⟨first, mem_cons_self, fun name hname => hnamed ⟨name, hname⟩⟩

theorem clearedStep_of_pass {tool : Option Json} {tier : TierValue} (ht : threshold < 3)
    (htool : stepTool step = .ok tool) (htier : tierOf tool = .ok tier) (hpass : tier.above threshold = false) :
    ClearedStep threshold step := by
  by_cases htext : ∃ name, tool = some (.str name)
  · obtain ⟨name, rfl⟩ := htext
    rw [tierOf_str, Except.ok.injEq] at htier
    rcases tierOfName_cleared ht (htier ▸ hpass) with hrunbook | hverb | hmember
    · exact .runbook name htool hrunbook
    · exact .tool name htool hverb
    · exact .inherited name htool hmember
  by_cases harray : ∃ items, tool = some (.arr items)
  · obtain ⟨items, rfl⟩ := harray
    exact .array items htool
  have hthrows := tierOf_noText (fun name hname => htext ⟨name, hname⟩) fun items hitems => harray ⟨items, hitems⟩
  rw [hthrows] at htier
  cases htier

theorem NamesTool.unique {name other : List Nat} (hname : NamesTool step name) (hother : NamesTool step other) :
    name = other := by
  unfold NamesTool at hname hother
  rw [hname] at hother
  cases hother
  rfl

/-- A step that passes is classified, what the tables inherit apart. -/
theorem ClearedStep.not_unclassified (h : ClearedStep threshold step) : ¬UnclassifiedStep step := by
  intro hnone
  cases hnone with
  | name name named member runbook verbs =>
    cases h with
    | runbook other hother hcleared => exact runbook (named.unique hother ▸ hcleared.1)
    | tool other hother hcleared =>
      obtain ⟨⟨tier, -, hcontains⟩, -⟩ := hcleared
      exact verbs tier (named.unique hother ▸ hcontains)
    | inherited other hother hmember => exact member (named.unique hother ▸ hmember)
    | array items hitems =>
      unfold NamesTool at named
      rw [hitems] at named
      cases named
  | shape noName noArray =>
    cases h with
    | runbook name named _ => exact noName name named
    | tool name named _ => exact noName name named
    | inherited name named _ => exact noName name named
    | array items named => exact noArray items named

end

section

variable {opts : RemediateOptions} {plan : PlanLike} {id : String} {trace : List HealerEvent}
  {result : Except TypeError Unit}

theorem refused_of_journal {reason : RefusedReason} {refusedSteps : List RefusedStep}
    (hrun : ((writeJournal (.refused id reason refusedSteps)).bind fun _ => .ret (.ok ())).Runs trace result) :
    Refused plan id trace result := by
  obtain ⟨reply, rest, rfl, rfl, rfl⟩ := hrun
  exact .journaled reason refusedSteps rfl rfl

theorem autoExecutePlan_cases (hrun : (autoExecutePlan opts plan id).Runs trace result) :
    Refused plan id trace result ∨
      truthy plan.requiresConfirmation = false ∧ refuseSteps opts.severityThreshold 0 plan.steps = .ok [] := by
  unfold autoExecutePlan at hrun
  split at hrun
  · exact .inl (refused_of_journal hrun)
  next hconfirm =>
    have hfalsy : truthy plan.requiresConfirmation = false := by simpa using hconfirm
    unfold gatePlan at hrun
    cases hrefuse : refuseSteps opts.severityThreshold 0 plan.steps with
    | error error =>
      obtain ⟨step, hmem, hstep⟩ := refuseSteps_error hrefuse
      simp only [hrefuse, bind, Except.bind] at hrun
      obtain ⟨rfl, rfl⟩ := hrun
      exact .inl (.aborted step hmem hstep rfl (by cases error; rfl))
    | ok refused =>
      cases refused with
      | nil => exact .inr ⟨hfalsy, rfl⟩
      | cons first refused =>
        left
        simp only [hrefuse, bind, Except.bind, pure, Except.pure, isEmpty_cons, Bool.false_and, Bool.not_false,
          if_true] at hrun
        exact refused_of_journal hrun

end

/-- Auto mode acts on a plan only if no confirmation is asked for and every step is a runbook or a tool of at most the
threshold, up to what the lookups inherit and to arrays; a plan with a step that is not classified is refused. -/
theorem autoExecutePlan_guarded (opts : RemediateOptions) (plan : PlanLike) (id : String) (trace : List HealerEvent)
    (result : Except TypeError Unit) (ht : opts.severityThreshold < 3)
    (hrun : (autoExecutePlan opts plan id).Runs trace result) :
    ((∃ event ∈ trace, event.call.acts = true) →
      truthy plan.requiresConfirmation = false ∧ ∀ step ∈ plan.steps, ClearedStep opts.severityThreshold step) ∧
    ((∃ step ∈ plan.steps, UnclassifiedStep step) → Refused plan id trace result) := by
  have hcleared : refuseSteps opts.severityThreshold 0 plan.steps = .ok [] →
      ∀ step ∈ plan.steps, ClearedStep opts.severityThreshold step := by
    intro hpass step hstep
    obtain ⟨tool, tier, htool, htier, habove⟩ := refuseSteps_nil hpass step hstep
    exact clearedStep_of_pass ht htool htier habove
  rcases autoExecutePlan_cases hrun with hrefused | ⟨hfalsy, hpass⟩
  · refine ⟨?_, fun _ => hrefused⟩
    rintro ⟨event, hevent, hacts⟩
    rw [hrefused.no_call event hevent] at hacts
    cases hacts
  refine ⟨fun _ => ⟨hfalsy, hcleared hpass⟩, ?_⟩
  rintro ⟨step, hstep, hnone⟩
  exact absurd hnone (hcleared hpass step hstep).not_unclassified

section

def autoOptions (severityThreshold : Nat) : RemediateOptions :=
  { auto := true, severityThreshold, proposalId := fun _ => "id", syntaxError := fun _ => [] }

def planOf (tool : String) : PlanLike :=
  { value := .obj [(units "steps", .arr [.obj [(units "tool", .str (units tool))]])]
    steps := [.obj [(units "tool", .str (units tool))]]
    isPlan := rfl }

def emptyReply (_ : List HealerEvent) : (call : Call) → Reply call
  | .writeJournal _ => ()
  | .callTool _ _ => .returned (.obj [])
  | .runRunbook _ _ => .returned (.obj [])

def runOf (severityThreshold : Nat) (tool : String) : List HealerEvent × Except TypeError Unit :=
  (autoExecutePlan (autoOptions severityThreshold) (planOf tool) "id").answeredBy emptyReply []

theorem runOf_runs (severityThreshold : Nat) (tool : String) :
    (autoExecutePlan (autoOptions severityThreshold) (planOf tool) "id").Runs (runOf severityThreshold tool).1
      (runOf severityThreshold tool).2 := Prog.answeredBy_nil_runs emptyReply _

theorem autoExecutePlan_guarded_list :
    (∃ event ∈ (runOf 2 "llamactl.catalog.list").1, event.call.acts = true) ∧
      ∀ step ∈ (planOf "llamactl.catalog.list").steps, ClearedStep 2 step := by
  have hacts : ∃ event ∈ (runOf 2 "llamactl.catalog.list").1, event.call.acts = true :=
    any_eq_true.mp (by decide +kernel)
  exact ⟨hacts, ((autoExecutePlan_guarded (autoOptions 2) _ "id" _ _ (by decide) (runOf_runs 2 _)).1 hacts).2⟩

def lastSegment (name : List Nat) : List Nat := (name.reverse.takeWhile (· ≠ 0x2E)).reverse

def VerbUpTo (threshold : Nat) (name : List Nat) : Prop :=
  ∃ tier, tier ≤ threshold ∧ 0x2E :: lastSegment name ∈ suffixesOf tier

/-- `listCollections` passes as a read, for the `list` it starts with. -/
theorem longer_segment_passes :
    ¬∀ (opts : RemediateOptions) (plan : PlanLike) (id : String) (trace : List HealerEvent)
      (result : Except TypeError Unit), opts.severityThreshold < 3 →
      (autoExecutePlan opts plan id).Runs trace result → (∃ event ∈ trace, event.call.acts = true) →
      truthy plan.requiresConfirmation = false ∧ ∀ step ∈ plan.steps, ∃ name, NamesTool step name ∧
        (RunbookUpTo opts.severityThreshold name ∨ VerbUpTo opts.severityThreshold name) := by
  intro hclaim
  obtain ⟨-, hsteps⟩ := hclaim (autoOptions 1) (planOf "llamactl.rag.listCollections") "id" _ _ (by decide) (runOf_runs 1 _)
    (any_eq_true.mp (by decide +kernel))
  obtain ⟨name, hname, hnamed⟩ := hsteps _ mem_cons_self
  cases hname
  rcases hnamed with ⟨hrunbook, -⟩ | ⟨tier, htier, hverb⟩
  · exact absurd hrunbook (by decide +kernel)
  have hnone : ∀ tier ≤ 1, 0x2E :: lastSegment (units "llamactl.rag.listCollections") ∉ suffixesOf tier := by
    decide +kernel
  exact hnone tier htier hverb

end

end llamactl.healer
