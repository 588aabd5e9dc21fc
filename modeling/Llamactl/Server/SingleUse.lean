import Llamactl.Server.ServiceToken

open js List Option

namespace llamactl.server

/-! A token's expiry is judged by the wall clock and a spent nonce is held on the monotonic clock: the
verifier forgets a nonce only once every token that carried it in an accepted call has expired. -/

/-- The calls come at non-decreasing readings of the monotonic clock. -/
def MonotonicClock (calls : List Presented) : Prop := calls.Pairwise fun a b => a.mono ≤ b.mono

/-- Between any two calls the wall clock falls behind the monotonic one by less than the room that the
retention leaves beyond the furthest expiry. -/
def WallKeepsUp (calls : List Presented) : Prop :=
  calls.Pairwise fun a b => (b.mono - a.mono) - (b.wall - a.wall) <
    (SERVICE_TOKEN_NONCE_RETENTION_MS : ℚ) - SERVICE_TOKEN_MAX_AHEAD_MS

/-- What an accepted token leaves in the queue. -/
def entry (used : Presented × ParsedServiceToken) : Held :=
  ⟨used.2.nonce, used.1.mono + SERVICE_TOKEN_NONCE_RETENTION_MS⟩

/-- The entries still within retention as of the reading `swept`. -/
def within (swept : Option ℚ) (log : List Held) : List Held :=
  log.filter fun h => swept.all fun at_ => at_ < h.until_

/-- The verifier's state against the log of all entries ever made and the last sweep. -/
structure Retained (v : ServiceTokenVerifier) (log : List Held) (swept : Option ℚ) : Prop where
  head_le : v.head ≤ v.held.length
  live : v.held.drop v.head = within swept log
  seen : v.seen = (within swept log).map Held.nonce
  nodup : v.seen.Nodup
  sorted : log.Pairwise fun a b => a.until_ ≤ b.until_
  latest : ∀ h ∈ log, ∃ at_ ∈ swept, h.until_ ≤ at_ + SERVICE_TOKEN_NONCE_RETENTION_MS

theorem Retained.fresh : Retained {} [] none where
  head_le := Nat.le_refl _
  live := rfl
  seen := rfl
  nodup := nodup_nil
  sorted := List.Pairwise.nil
  latest := fun _ hmem => absurd hmem not_mem_nil

section

/-- The loop removes the nonces of the entries it passes, which are those at the front that are due. -/
theorem sweepFrom_eq (at_ : ℚ) (live : List Held) (head : Nat) (hnodup : (live.map Held.nonce).Nodup) :
    sweepFrom at_ live (live.map Held.nonce) head =
      ((live.dropWhile (fun h => h.until_ ≤ at_)).map Held.nonce,
        head + (live.takeWhile (fun h => h.until_ ≤ at_)).length) := by
  induction live generalizing head with
  | nil => rfl
  | cons next rest ih =>
    obtain ⟨hnext, hrest⟩ := nodup_cons.mp hnodup
    by_cases hdue : next.until_ ≤ at_
    · have hfilter : (rest.map Held.nonce).filter (· ≠ next.nonce) = rest.map Held.nonce := by
        apply filter_eq_self.mpr
        intro nonce hmem
        have hne : nonce ≠ next.nonce := fun heq => hnext (heq ▸ hmem)
        simpa using hne
      simp only [sweepFrom, hdue, if_true, map_cons, filter_cons]
      simp only [ne_eq, not_true_eq_false, decide_false, Bool.false_eq_true, if_false]
      rw [hfilter, ih (head + 1) hrest]
      simp only [dropWhile_cons, takeWhile_cons, hdue, decide_true, if_true, length_cons]
      rw [Nat.add_right_comm, Nat.add_assoc]
    · simp [sweepFrom, hdue]

/-- In an ordered queue the entries at the front that are due are all that are due. -/
theorem dropWhile_due (at_ : ℚ) {live : List Held} (hsorted : live.Pairwise fun a b => a.until_ ≤ b.until_) :
    live.dropWhile (fun h => h.until_ ≤ at_) = live.filter fun h => at_ < h.until_ := by
  induction live with
  | nil => rfl
  | cons next rest ih =>
    obtain ⟨hnext, hrest⟩ := pairwise_cons.mp hsorted
    by_cases hdue : next.until_ ≤ at_
    · simp [hdue, ih hrest, not_lt.mpr hdue]
    have hall : ∀ h ∈ rest, at_ < h.until_ := fun h hmem =>
      lt_of_lt_of_le (not_le.mp hdue) (hnext h hmem)
    have hself : rest.filter (fun h => at_ < h.until_) = rest := by
      apply filter_eq_self.mpr
      simpa using hall
    simp [hdue, not_le.mp hdue, hself]

theorem within_within {swept : Option ℚ} {at_ : ℚ} (hlater : ∀ s ∈ swept, s ≤ at_) (log : List Held) :
    (within swept log).filter (fun h => at_ < h.until_) = within (some at_) log := by
  unfold within
  rw [List.filter_filter]
  apply filter_congr
  intro h _
  cases swept with
  | none => simp
  | some s =>
    have hle := hlater s rfl
    by_cases hlt : at_ < h.until_
    · simp [hlt, lt_of_le_of_lt hle hlt]
    · simp [hlt]

theorem Retained.sweep {v : ServiceTokenVerifier} {log : List Held} {swept : Option ℚ} {at_ : ℚ}
    (hv : Retained v log swept) (hlater : ∀ s ∈ swept, s ≤ at_) : Retained (v.sweep at_) log (some at_) := by
  have hsorted : (within swept log).Pairwise fun a b => a.until_ ≤ b.until_ := hv.sorted.filter _
  have hnodup : ((v.held.drop v.head).map Held.nonce).Nodup := by
    rw [hv.live, ← hv.seen]
    exact hv.nodup
  have hdrop : (v.held.drop v.head).dropWhile (fun h => h.until_ ≤ at_) = within (some at_) log := by
    rw [hv.live, dropWhile_due at_ hsorted, within_within hlater]
  -- the new head stands right after the entries that were due
  obtain ⟨taken, htaken⟩ : ∃ n, n = ((v.held.drop v.head).takeWhile (fun h => h.until_ ≤ at_)).length :=
    ⟨_, rfl⟩
  have hlive : v.held.drop (v.head + taken) = within (some at_) log := by
    rw [← hdrop, ← drop_drop, htaken]
    nth_rewrite 2 [← takeWhile_append_dropWhile (p := fun h : Held => h.until_ ≤ at_)
      (l := v.held.drop v.head)]
    exact drop_left
  have hhead : v.head + taken ≤ v.held.length := by
    have hle := (takeWhile_sublist (l := v.held.drop v.head) (fun h => h.until_ ≤ at_)).length_le
    have hbound := hv.head_le
    rw [length_drop] at hle
    omega
  have hfrom : sweepFrom at_ (v.held.drop v.head) v.seen v.head =
      ((within (some at_) log).map Held.nonce, v.head + taken) := by
    rw [hv.seen, ← hv.live, sweepFrom_eq at_ _ _ hnodup, hdrop, htaken]
  have hlatest : ∀ h ∈ log, ∃ a ∈ some at_, h.until_ ≤ a + SERVICE_TOKEN_NONCE_RETENTION_MS := by
    intro h hmem
    obtain ⟨s, hs, hle⟩ := hv.latest h hmem
    have hsat := hlater s hs
    exact ⟨at_, rfl, by linarith⟩
  have hseen : ((within (some at_) log).map Held.nonce).Nodup := by
    rw [← hdrop]
    exact hnodup.sublist ((dropWhile_sublist _).map _)
  unfold ServiceTokenVerifier.sweep
  rw [hfrom]
  dsimp only
  split
  · exact ⟨Nat.zero_le _, by simpa using hlive, rfl, hseen, hv.sorted, hlatest⟩
  · exact ⟨hhead, hlive, rfl, hseen, hv.sorted, hlatest⟩

end

theorem mem_within {swept : Option ℚ} {log : List Held} {h : Held} :
    h ∈ within swept log ↔ h ∈ log ∧ ∀ at_ ∈ swept, at_ < h.until_ := by
  unfold within
  cases swept <;> simp

theorem retention_pos : 0 < SERVICE_TOKEN_NONCE_RETENTION_MS := by
  unfold SERVICE_TOKEN_NONCE_RETENTION_MS
  omega

/-- A nonce that is spent right after a sweep joins the queue's end. -/
theorem Retained.spend {v : ServiceTokenVerifier} {log : List Held} {at_ : ℚ} {nonce : List Nat}
    (hv : Retained v log (some at_)) (hnew : nonce ∉ v.seen) :
    Retained
      { v with
        seen := v.seen ++ [nonce]
        held := v.held ++ [⟨nonce, at_ + SERVICE_TOKEN_NONCE_RETENTION_MS⟩] }
      (log ++ [⟨nonce, at_ + SERVICE_TOKEN_NONCE_RETENTION_MS⟩]) (some at_) := by
  have hlast : within (some at_) [⟨nonce, at_ + SERVICE_TOKEN_NONCE_RETENTION_MS⟩] =
      [(⟨nonce, at_ + SERVICE_TOKEN_NONCE_RETENTION_MS⟩ : Held)] := by
    simp [within, retention_pos]
  have hwithin : within (some at_) (log ++ [⟨nonce, at_ + SERVICE_TOKEN_NONCE_RETENTION_MS⟩]) =
      within (some at_) log ++ [⟨nonce, at_ + SERVICE_TOKEN_NONCE_RETENTION_MS⟩] := by
    nth_rewrite 2 [← hlast]
    exact filter_append ..
  have hupper : ∀ h ∈ log, h.until_ ≤ at_ + SERVICE_TOKEN_NONCE_RETENTION_MS := by
    intro h hmem
    obtain ⟨s, hs, hle⟩ := hv.latest h hmem
    rw [mem_some.mp hs]
    exact hle
  constructor
  case head_le =>
    have hle := hv.head_le
    simp only [length_append]
    omega
  case live =>
    rw [hwithin, drop_append_of_le_length hv.head_le, hv.live]
  case seen => rw [hwithin, map_append, hv.seen, map_singleton]
  case nodup => exact hv.nodup.append (nodup_singleton _) (by simpa using hnew)
  case sorted =>
    apply pairwise_append.mpr
    refine ⟨hv.sorted, pairwise_singleton _ _, ?_⟩
    intro a ha b hb
    rw [mem_singleton.mp hb]
    exact hupper a ha
  case latest =>
    intro h hmem
    refine ⟨at_, rfl, ?_⟩
    rcases mem_append.mp hmem with hlog | hone
    · exact hupper h hlog
    · rw [mem_singleton.mp hone]

variable (platform : Platform) (node : List Nat)

theorem claimsFor_cases (v : ServiceTokenVerifier) (c : Presented) :
    (∃ reason, admitted platform node c = .error reason ∧
      v.claimsFor platform node c = (.refused reason, v)) ∨
    ∃ parsed, admitted platform node c = .ok parsed ∧
      ((∃ reason, (parsed.nonce ∈ (v.sweep c.mono).seen ∨
          mintedBy platform parsed node c.call c.bindings = none) ∧
        v.claimsFor platform node c = (.refused (some reason), v.sweep c.mono)) ∨
      ∃ binding, parsed.nonce ∉ (v.sweep c.mono).seen ∧
        mintedBy platform parsed node c.call c.bindings = some binding ∧
        v.claimsFor platform node c = (.accepted (claimsOf binding),
          { v.sweep c.mono with
            seen := (v.sweep c.mono).seen ++ [parsed.nonce]
            held := (v.sweep c.mono).held ++ [⟨parsed.nonce, c.mono + SERVICE_TOKEN_NONCE_RETENTION_MS⟩] })) := by
  cases hadmitted : admitted platform node c with
  | error reason => exact .inl ⟨reason, rfl, by simp [ServiceTokenVerifier.claimsFor, hadmitted]⟩
  | ok parsed =>
    refine .inr ⟨parsed, rfl, ?_⟩
    by_cases hseen : parsed.nonce ∈ (v.sweep c.mono).seen
    · exact .inl ⟨.replay, .inl hseen, by simp [ServiceTokenVerifier.claimsFor, hadmitted, hseen]⟩
    cases hminted : mintedBy platform parsed node c.call c.bindings with
    | none => exact .inl ⟨.mac, .inr rfl, by simp [ServiceTokenVerifier.claimsFor, hadmitted, hseen, hminted]⟩
    | some binding =>
      exact .inr ⟨binding, hseen, rfl, by simp [ServiceTokenVerifier.claimsFor, hadmitted, hseen, hminted]⟩

section

/-- The call passes the checks that come before the sweep. -/
def reachesSweep (c : Presented) : Bool := (admitted platform node c).isOk

def lastSweep (calls : List Presented) : Option ℚ :=
  (calls.filter (reachesSweep platform node)).getLast?.map Presented.mono

variable {platform node}

theorem after_append (v : ServiceTokenVerifier) (calls rest : List Presented) :
    v.after platform node (calls ++ rest) = (v.after platform node calls).after platform node rest :=
  foldl_append ..

theorem spent_append (v : ServiceTokenVerifier) (calls rest : List Presented) :
    v.spent platform node (calls ++ rest) =
      v.spent platform node calls ++ (v.after platform node calls).spent platform node rest := by
  induction calls generalizing v with
  | nil => rfl
  | cons c calls ih =>
    simp only [cons_append, ServiceTokenVerifier.spent, ServiceTokenVerifier.after, foldl_cons]
    split
    · rw [ih]
      rfl
    · exact ih _

variable {v : ServiceTokenVerifier} {calls : List Presented} {used : Presented × ParsedServiceToken}

theorem mem_spent (hmem : used ∈ v.spent platform node calls) :
    used.1 ∈ calls ∧ admitted platform node used.1 = .ok used.2 := by
  induction calls generalizing v with
  | nil => exact absurd hmem not_mem_nil
  | cons c calls ih =>
    simp only [ServiceTokenVerifier.spent] at hmem
    split at hmem
    case h_1 parsed _ hadmitted _ =>
      rcases mem_cons.mp hmem with hhead | htail
      · rw [hhead]
        exact ⟨mem_cons_self, hadmitted⟩
      · exact ⟨mem_cons_of_mem _ (ih htail).1, (ih htail).2⟩
    case h_2 => exact ⟨mem_cons_of_mem _ (ih hmem).1, (ih hmem).2⟩

variable {c : Presented}

theorem lastSweep_append_reaching (hreaches : reachesSweep platform node c = true) :
    lastSweep platform node (calls ++ [c]) = some c.mono := by
  simp [lastSweep, filter_append, hreaches]

theorem lastSweep_append_refused (hreaches : reachesSweep platform node c = false) :
    lastSweep platform node (calls ++ [c]) = lastSweep platform node calls := by
  simp [lastSweep, filter_append, hreaches]

theorem lastSweep_le (hclock : MonotonicClock (calls ++ [c])) :
    ∀ s ∈ lastSweep platform node calls, s ≤ c.mono := by
  intro s hs
  obtain ⟨last, hlast, rfl⟩ := map_eq_some_iff.mp hs
  have hmem : last ∈ calls := mem_of_mem_filter (mem_of_getLast? hlast)
  exact (pairwise_append.mp hclock).2.2 last hmem c (mem_singleton.mpr rfl)

theorem Retained.call (platform : Platform) (node : List Nat) {log : List Held} {swept : Option ℚ}
    (hv : Retained v log swept) (hlater : ∀ s ∈ swept, s ≤ c.mono) :
    Retained (v.claimsFor platform node c).2 (log ++ (v.spent platform node [c]).map entry)
      (if reachesSweep platform node c then some c.mono else swept) := by
  have hswept := hv.sweep hlater
  rcases claimsFor_cases platform node v c with
    ⟨reason, hadmitted, hcall⟩ | ⟨parsed, hadmitted, ⟨reason, -, hcall⟩ | ⟨binding, hnew, -, hcall⟩⟩
  · simpa [ServiceTokenVerifier.spent, hcall, hadmitted, reachesSweep, Except.isOk, Except.toBool] using hv
  · simpa [ServiceTokenVerifier.spent, hcall, hadmitted, reachesSweep, Except.isOk, Except.toBool] using hswept
  · simpa [ServiceTokenVerifier.spent, hcall, hadmitted, reachesSweep, Except.isOk, Except.toBool, entry]
      using hswept.spend hnew

theorem retained_after (platform : Platform) (node : List Nat) (hclock : MonotonicClock calls) :
    Retained (ServiceTokenVerifier.after platform node {} calls)
      ((ServiceTokenVerifier.spent platform node {} calls).map entry) (lastSweep platform node calls) := by
  induction calls using List.reverseRecOn with
  | nil => exact Retained.fresh
  | append_singleton calls c ih =>
    have hcall := (ih (pairwise_append.mp hclock).1).call platform node (lastSweep_le hclock)
    rw [after_append, spent_append, map_append]
    cases hreaches : reachesSweep platform node c with
    | true =>
      rw [hreaches, if_pos rfl] at hcall
      rw [lastSweep_append_reaching hreaches]
      exact hcall
    | false =>
      rw [hreaches, if_neg Bool.false_ne_true] at hcall
      rw [lastSweep_append_refused hreaches]
      exact hcall

/-- An early check that passed bounds the expiry by the wall clock on both sides. -/
theorem admitted_wall {parsed : ParsedServiceToken} (hadmitted : admitted platform node c = .ok parsed) :
    c.wall ≤ parsed.expiresAt ∧ parsed.expiresAt - c.wall ≤ SERVICE_TOKEN_MAX_AHEAD_MS := by
  have hrefusal : refusalFor parsed node c.call c.wall = none := by
    unfold admitted at hadmitted
    grind
  unfold refusalFor at hrefusal
  grind

theorem spent_singleton (hmem : used ∈ v.spent platform node [c]) :
    used.1 = c ∧ used.2.nonce ∉ (v.sweep c.mono).seen := by
  rcases claimsFor_cases platform node v c with
    ⟨reason, hadmitted, hcall⟩ | ⟨parsed, hadmitted, ⟨reason, -, hcall⟩ | ⟨binding, hnew, -, hcall⟩⟩
  · simp [ServiceTokenVerifier.spent, hcall, hadmitted] at hmem
  · simp [ServiceTokenVerifier.spent, hcall, hadmitted] at hmem
  obtain rfl : used = (c, parsed) := by
    simpa [ServiceTokenVerifier.spent, hcall, hadmitted] using hmem
  exact ⟨rfl, hnew⟩

theorem spent_fresh (hclock : MonotonicClock (calls ++ [c]))
    (hwall : WallKeepsUp (calls ++ [c])) {next : Presented × ParsedServiceToken}
    (hused : used ∈ ServiceTokenVerifier.spent platform node {} calls)
    (hnext : next ∈ (ServiceTokenVerifier.after platform node {} calls).spent platform node [c]) :
    ¬ (used.2.nonce = next.2.nonce ∧ used.2.expiresAt = next.2.expiresAt) := by
  rintro ⟨hnonce, hexpires⟩
  obtain ⟨hmem, hadmitted⟩ := mem_spent hused
  obtain ⟨-, hnextAdmitted⟩ := mem_spent hnext
  obtain ⟨rfl, hnew⟩ := spent_singleton hnext
  have hretained := (retained_after platform node (pairwise_append.mp hclock).1).sweep (lastSweep_le hclock)
  -- the nonce is not held, so the entry of the earlier call is out of retention
  have hgone : used.1.mono + SERVICE_TOKEN_NONCE_RETENTION_MS ≤ next.1.mono := by
    apply le_of_not_gt
    intro hheld
    apply hnew
    rw [hretained.seen, ← hnonce]
    apply List.mem_map.mpr
    refine ⟨entry used, mem_within.mpr ⟨mem_map_of_mem hused, ?_⟩, rfl⟩
    intro at_ hat
    rw [← mem_some.mp hat]
    exact hheld
  have hlate := (pairwise_append.mp hwall).2.2 used.1 hmem next.1 (mem_singleton.mpr rfl)
  have hearlier := (admitted_wall hadmitted).2
  have hlater := (admitted_wall hnextAdmitted).1
  rw [hexpires] at hearlier
  linarith

theorem spent_pairwise (hclock : MonotonicClock calls) (hwall : WallKeepsUp calls) :
    (ServiceTokenVerifier.spent platform node {} calls).Pairwise fun a b =>
      ¬ (a.2.nonce = b.2.nonce ∧ a.2.expiresAt = b.2.expiresAt) := by
  induction calls using List.reverseRecOn with
  | nil => exact List.Pairwise.nil
  | append_singleton calls c ih =>
    have hspent := ih (pairwise_append.mp hclock).1 (pairwise_append.mp hwall).1
    rw [spent_append]
    apply pairwise_append.mpr
    refine ⟨hspent, ?_, fun used hused next hnext => spent_fresh hclock hwall hused hnext⟩
    have hlength : ((ServiceTokenVerifier.after platform node {} calls).spent platform node [c]).length ≤ 1 := by
      simp only [ServiceTokenVerifier.spent]
      split <;> simp
    apply pairwise_iff_getElem.mpr
    intro i j hi hj hij
    omega

end

section

/-- Two verifiers that spent the same nonces answer every later call alike, whenever each last swept. -/
theorem verdicts_congr {v w : ServiceTokenVerifier} {log : List Held} {swept swept' : Option ℚ}
    {calls : List Presented} (hv : Retained v log swept) (hw : Retained w log swept')
    (hclock : MonotonicClock calls) (hlater : ∀ s ∈ swept, ∀ c ∈ calls, s ≤ c.mono)
    (hlater' : ∀ s ∈ swept', ∀ c ∈ calls, s ≤ c.mono) :
    v.verdicts platform node calls = w.verdicts platform node calls := by
  induction calls generalizing v w log swept swept' with
  | nil => rfl
  | cons c rest ih =>
    obtain ⟨hfirst, hrest⟩ := pairwise_cons.mp hclock
    have hvs : ∀ s ∈ swept, s ≤ c.mono := fun s hs => hlater s hs c mem_cons_self
    have hws : ∀ s ∈ swept', s ≤ c.mono := fun s hs => hlater' s hs c mem_cons_self
    have hseen : (v.sweep c.mono).seen = (w.sweep c.mono).seen := by
      rw [(hv.sweep hvs).seen, (hw.sweep hws).seen]
    have hverdict : (v.claimsFor platform node c).1 = (w.claimsFor platform node c).1 := by
      simp only [ServiceTokenVerifier.claimsFor, hseen]
      grind
    have hspent : v.spent platform node [c] = w.spent platform node [c] := by
      simp only [ServiceTokenVerifier.spent, hverdict]
    simp only [ServiceTokenVerifier.verdicts, hverdict]
    congr 1
    have hvc := hv.call platform node hvs
    rw [hspent] at hvc
    have hnow : ∀ (swept : Option ℚ), (∀ s ∈ swept, ∀ d ∈ c :: rest, s ≤ d.mono) →
        ∀ s ∈ (if reachesSweep platform node c then some c.mono else swept), ∀ d ∈ rest, s ≤ d.mono := by
      intro swept hbound s hs d hd
      split at hs
      · rw [← mem_some.mp hs]
        exact hfirst d hd
      · exact hbound s hs d (mem_cons_of_mem _ hd)
    exact ih hvc (hw.call platform node hws) hrest (hnow swept hlater) (hnow swept' hlater')

theorem verdicts_refused {before rest : List Presented} {c : Presented}
    (hclock : MonotonicClock (before ++ c :: rest))
    (hrefused : ((ServiceTokenVerifier.after platform node {} before).claimsFor platform node c).1.isAccepted
      = false) :
    ((ServiceTokenVerifier.after platform node {} before).claimsFor platform node c).2.verdicts
        platform node rest =
      (ServiceTokenVerifier.after platform node {} before).verdicts platform node rest := by
  obtain ⟨hbefore, hcalls, hcross⟩ := pairwise_append.mp hclock
  obtain ⟨hc, hrest⟩ := pairwise_cons.mp hcalls
  have hretained := retained_after platform node hbefore
  have hlast : ∀ s ∈ lastSweep platform node before, ∀ d ∈ c :: rest, s ≤ d.mono := by
    intro s hs d hd
    obtain ⟨last, hlast, rfl⟩ := map_eq_some_iff.mp hs
    exact hcross last (mem_of_mem_filter (mem_of_getLast? hlast)) d hd
  have hcall := hretained.call platform node fun s hs => hlast s hs c mem_cons_self
  -- nothing was spent, so the two verifiers hold the same log
  have hspent : (ServiceTokenVerifier.after platform node {} before).spent platform node [c] = [] := by
    simp only [ServiceTokenVerifier.spent]
    split
    case h_1 hverdict => simp [hverdict, Verdict.isAccepted] at hrefused
    case h_2 => rfl
  rw [hspent, map_nil, append_nil] at hcall
  apply verdicts_congr platform node hcall hretained hrest
  · intro s hs d hd
    split at hs
    · rw [← mem_some.mp hs]
      exact hc d hd
    · exact hlast s hs d (mem_cons_of_mem _ hd)
  · exact fun s hs d hd => hlast s hs d (mem_cons_of_mem _ hd)

end

/-- Two readings of one token: however its parts are re-encoded, the nonce and the expiry stay. -/
def SameToken (a b : ParsedServiceToken) : Prop := a.nonce = b.nonce ∧ a.expiresAt = b.expiresAt

/-- A token is accepted at most once, the replay set holds what was spent and is within retention as of
the last sweep, and a refused call changes no later verdict. -/
theorem claimsFor_single_use (platform : Platform) (node : List Nat) (calls : List Presented)
    (hclock : MonotonicClock calls) (hwall : WallKeepsUp calls) :
    (ServiceTokenVerifier.spent platform node {} calls).Pairwise (fun a b => ¬ SameToken a.2 b.2) ∧
    (∀ nonce, nonce ∈ (ServiceTokenVerifier.after platform node {} calls).seen ↔
      ∃ used ∈ ServiceTokenVerifier.spent platform node {} calls, used.2.nonce = nonce ∧
        ∀ at_ ∈ lastSweep platform node calls, at_ < used.1.mono + SERVICE_TOKEN_NONCE_RETENTION_MS) ∧
    ∀ before c rest, calls = before ++ c :: rest →
      ((ServiceTokenVerifier.after platform node {} before).claimsFor platform node c).1.isAccepted = false →
      ((ServiceTokenVerifier.after platform node {} before).claimsFor platform node c).2.verdicts
          platform node rest =
        (ServiceTokenVerifier.after platform node {} before).verdicts platform node rest := by
  refine ⟨spent_pairwise hclock hwall, ?_, ?_⟩
  · intro nonce
    rw [(retained_after platform node hclock).seen]
    constructor
    · intro hmem
      obtain ⟨h, hwithin, rfl⟩ := List.mem_map.mp hmem
      obtain ⟨hlog, hheld⟩ := mem_within.mp hwithin
      obtain ⟨used, hused, rfl⟩ := List.mem_map.mp hlog
      exact ⟨used, hused, rfl, hheld⟩
    · rintro ⟨used, hused, rfl, hheld⟩
      exact List.mem_map.mpr ⟨entry used, mem_within.mpr ⟨mem_map_of_mem hused, hheld⟩, rfl⟩
  · rintro before c rest rfl hrefused
    exact verdicts_refused platform node hclock hrefused

section

/-- The MAC of the sample token under the key 00, 01, .. 1f. -/
def sampleMac : List UInt8 :=
  [214, 42, 45, 40, 230, 40, 70, 64, 217, 130, 219, 104, 86, 148, 166, 126,
    51, 105, 9, 47, 120, 234, 187, 212, 248, 52, 135, 44, 150, 232, 36, 241]

/-- The runtime's results on the parts of the sample token. -/
def samplePlatform : Platform where
  base64url text :=
    if text = codeUnits "d29ya2VyMQ" then (codeUnits "worker1").map UInt8.ofNat
    else if text = codeUnits "YS0x" then (codeUnits "a-1").map UInt8.ofNat
    else sampleMac
  hex _ := (List.range 32).map UInt8.ofNat
  utf8 bytes := bytes.map UInt8.toNat
  sha256 _ := codeUnits "WfVpvHt6OOXhY_oU-KxW0I2OX2Eq6zV7bnaFKSf21M8"
  hmac _ _ := sampleMac

def sampleCall : ServiceTokenCall where
  method := codeUnits "inferenceRpc.status"
  input := some (.obj [(codeUnits "attemptId", .str (codeUnits "a-1"))])
  relayPrincipal := codeUnits "central"

def sampleBinding : ServiceCredentialBinding where
  claims := { serviceId := "svc", operations := [.status], deployments := [], models := [], tenants := ["t"],
              credentialScopeId := "scope" }
  tokenHash := []
  tunnelKey := some (codeUnits "000102030405060708090a0b0c0d0e0f101112131415161718191a1b1c1d1e1f")

/-- A token, its re-encoding with a padded expiry, and a text that is no token. -/
def sampleCalls : List Presented :=
  [{ token := some (codeUnits
        "v2.d29ya2VyMQ.60000.AAAAAAAAAAAAAAAA.YS0x.1iotKOYoRkDZgttoVpSmfjNpCS946rvU-DSHLJboJPE")
     call := sampleCall, bindings := [sampleBinding], wall := 10, mono := 5 },
   { token := some (codeUnits
        "v2.d29ya2VyMQ.060000.AAAAAAAAAAAAAAAA.YS0x.1iotKOYoRkDZgttoVpSmfjNpCS946rvU-DSHLJboJPE")
     call := sampleCall, bindings := [sampleBinding], wall := 12, mono := 9 },
   { token := some (codeUnits "v1"), call := sampleCall, bindings := [sampleBinding], wall := 8, mono := 9 }]

theorem claimsFor_single_use_reencoded :
    ((ServiceTokenVerifier.spent samplePlatform (codeUnits "worker1") {} sampleCalls).map
      fun used => used.2.expiresAt) = [60000] ∧
    (ServiceTokenVerifier.spent samplePlatform (codeUnits "worker1") {} sampleCalls).Pairwise
      (fun a b => ¬ SameToken a.2 b.2) := by
  have hclock : MonotonicClock sampleCalls := by
    unfold MonotonicClock
    decide +kernel
  have hwall : WallKeepsUp sampleCalls := by
    unfold WallKeepsUp
    decide +kernel
  exact ⟨by decide +kernel, (claimsFor_single_use samplePlatform (codeUnits "worker1") sampleCalls hclock hwall).1⟩

end

end llamactl.server
