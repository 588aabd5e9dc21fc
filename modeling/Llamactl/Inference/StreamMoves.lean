import Llamactl.Inference.CancelIndex

open collections List Option

namespace llamactl.inference

/-! A stream acts on its own attempt only: its steps are those of a machine over the stream and the record of its
attempt, and leave the rest of the host. -/

def Attempt.settleTo (a : Attempt) (terminal : Terminal) : Attempt :=
  if a.terminal.isSome then a else a.settle terminal

def Attempt.stopWith (a : Attempt) (reason : StopReason) : Attempt :=
  if a.running then (a.settleTo (stopTerminal a.run reason)).abort reason else a

namespace Stream

variable (stream : Stream) (a : Attempt)

def finishOwn (message code : String) : Stream × Attempt :=
  let terminal := failureTerminal a.run message code
  (stream.emit a (.terminal (a.terminal.getD terminal)) .terminal,
    { a.settleTo terminal with terminalSequence := some stream.sequence })

def leaveOwn : Stream × Attempt := ({ stream with point := .over }, a)

def disconnectOwn : Stream × Attempt := ({ stream with point := .over }, a.stopWith .disconnect)

def startOwn (dial : Dial) : Stream × Attempt :=
  if a.run.aborted.isSome then ({ stream with point := .awaiting false }, a)
  else
    match dial.current with
    | .error message => stream.finishOwn a message "upstream-error"
    | .ok current =>
      match movedSinceAcceptance current a.run.deployment with
      | some message => ({ stream with point := .awaiting false }, a.settleTo (movedTerminal message))
      | none =>
        match dial.refusal with
        | none => ({ stream with point := .awaiting true }, a.setState .started)
        | some message => stream.finishOwn (a.setState .started) message "upstream-error"

def onEventOwn (event : BackendEvent) : Stream × Attempt :=
  if a.terminal.isSome then ({ stream with point := .closing .breaks }, a)
  else
    match event with
    | .done result usage => ({ stream with point := .awaiting true }, a.settleTo (endTerminal a.run result usage))
    | .content payload => (stream.emit a (.content payload) .emitted, a.setState .emitting)

def onBackendOwn (dialled : Bool) (report : BackendStep) : Option (Stream × Attempt) :=
  match report, dialled with
  | .ends, _ => some (stream.finishOwn a "no backend result" "internal-error")
  | .event event, true => some (stream.onEventOwn a event)
  | .throws message, true => some (stream.finishOwn a message "upstream-error")
  | _, false => none

def closedOwn (leaving : Leaving) (failure : Option String) : Stream × Attempt :=
  match leaving, failure with
  | .breaks, none => stream.finishOwn a "no backend result" "internal-error"
  | .returns, none => stream.disconnectOwn a
  | .throws message, _ => stream.finishOwn a message "upstream-error"
  | .breaks, some message | .returns, some message => stream.finishOwn a message "upstream-error"

def pullOwn (pull : Pull) : Option (Stream × Attempt) :=
  match stream.point, pull with
  | .accepted, .next dial => some (stream.startOwn a dial)
  | .accepted, .returns => some (stream.disconnectOwn a)
  | .accepted, .throws message => some (stream.finishOwn a message "upstream-error")
  | .emitted, .next _ => some ({ stream with point := .awaiting true }, a)
  | .emitted, .returns => some ({ stream with point := .closing .returns }, a)
  | .emitted, .throws message => some ({ stream with point := .closing (.throws message) }, a)
  | .terminal, _ => some (stream.leaveOwn a)
  | _, _ => none

def signalOwn : Stream × Attempt :=
  match stream.point with
  | .accepted | .awaiting _ | .emitted | .closing _ => ({ stream with signalled := true }, a.stopWith .disconnect)
  | _ => ({ stream with signalled := true }, a)

end Stream

/-- What can happen to a stream after it was called. -/
inductive StreamMove where
  | pull (pull : Pull)
  | signal
  | backend (report : BackendStep)
  | closed (failure : Option String)

def StreamMove.action (i : Nat) : StreamMove → Action
  | .pull p => .pull i p
  | .signal => .signal i
  | .backend report => .backend i report
  | .closed failure => .closed i failure

def Stream.move (stream : Stream) (a : Attempt) : StreamMove → Option (Stream × Attempt)
  | .pull pull => stream.pullOwn a pull
  | .signal => some (stream.signalOwn a)
  | .backend report =>
    match stream.point with
    | .awaiting dialled => stream.onBackendOwn a dialled report
    | _ => none
  | .closed failure =>
    match stream.point with
    | .closing leaving => some (stream.closedOwn a leaving failure)
    | _ => none

/-- The host afterwards has another record at one place; names, scopes, tables and the index are as they were. -/
structure Rewrites (r : Nat) (a : Attempt) (state next : HostState) : Prop where
  attempts : next.attempts = state.attempts.set r a
  records : next.records = state.records
  cancelIds : next.cancelIds = state.cancelIds
  draining : next.draining = state.draining
  objects : ∀ o : Nat, Option.Rel SameScope (state.ownerObjects[o]?) (next.ownerObjects[o]?)

section

variable {state mid next : HostState} {r : Nat} {a b : Attempt}

theorem modify_eq_set {l : List Attempt} (ha : l[r]? = some a) (f : Attempt → Attempt) : l.modify r f = l.set r (f a) := by
  rw [modify_eq_set_getElem?, ha]
  rfl

theorem SameScope.trans {w v u : AttemptOwner} (hwv : SameScope w v) (hvu : SameScope v u) : SameScope w u :=
  ⟨hvu.key.trans hwv.key, hvu.serviceId.trans hwv.serviceId, hvu.credentialScopeId.trans hwv.credentialScopeId⟩

theorem Rewrites.refl (ha : state.attempts[r]? = some a) : Rewrites r a state state := by
  obtain ⟨hlt, rfl⟩ := List.getElem?_eq_some_iff.mp ha
  exact ⟨(set_getElem_self hlt).symm, rfl, rfl, rfl, fun o => rel_refl SameScope.refl _⟩

theorem Rewrites.trans (hfirst : Rewrites r a state mid) (hsecond : Rewrites r b mid next) :
    Rewrites r b state next := by
  refine ⟨?_, hsecond.records.trans hfirst.records, hsecond.cancelIds.trans hfirst.cancelIds,
    hsecond.draining.trans hfirst.draining, ?_⟩
  · rw [hsecond.attempts, hfirst.attempts, set_set]
  intro o
  have hleft := hfirst.objects o
  have hright := hsecond.objects o
  cases hw : state.ownerObjects[o]? with
  | none =>
    rw [hw] at hleft
    generalize mid.ownerObjects[o]? = y at hleft hright
    cases hleft
    generalize next.ownerObjects[o]? = z at hright ⊢
    cases hright
    exact .none
  | some w =>
    obtain ⟨v, hv, hwv⟩ := exists_of_rel_left hleft hw
    obtain ⟨u, hu, hvu⟩ := exists_of_rel_left hright hv
    rw [hu]
    exact .some (hwv.trans hvu)

theorem Rewrites.get (h : Rewrites r b state next) (ha : state.attempts[r]? = some a) : next.attempts[r]? = some b := by
  rw [h.attempts]
  exact getElem?_set_self (List.getElem?_eq_some_iff.mp ha).1

theorem Rewrites.idle (h : Rewrites r a state next) (streams : Int) (idle : Nat) :
    Rewrites r a state { next with streams, idle } :=
  ⟨h.attempts, h.records, h.cancelIds, h.draining, h.objects⟩

theorem Rewrites.notifyIdle (h : Rewrites r a state next) : Rewrites r a state next.notifyIdle := by
  obtain ⟨idle, hidle⟩ := notifyIdle_eq next
  rw [hidle]
  exact h.idle next.streams idle

theorem modify_rewrites (ha : state.attempts[r]? = some a) (f : Attempt → Attempt) :
    Rewrites r (f a) state (state.modifyAttempt r f) :=
  ⟨modify_eq_set ha f, rfl, rfl, rfl, fun _ => rel_refl SameScope.refl _⟩

theorem settle_rewrites (ha : state.attempts[r]? = some a) (terminal : Terminal) :
    Rewrites r (a.settleTo terminal) state (state.settle r terminal).1 ∧
      (state.settle r terminal).2 = a.terminal.getD terminal := by
  rcases settle_cases ha terminal with ⟨recorded, hrecorded, heq⟩ | ⟨hnone, idle, heq⟩
  · rw [heq, Attempt.settleTo, hrecorded]
    exact ⟨.refl ha, rfl⟩
  rw [heq, Attempt.settleTo, hnone]
  refine ⟨⟨modify_eq_set ha (·.settle terminal), rfl, rfl, rfl, ?_⟩, rfl⟩
  exact rel_modify SameScope.refl fun w _ => ⟨rfl, rfl, rfl⟩

theorem stopAttempt_rewrites (ha : state.attempts[r]? = some a) (reason : StopReason) :
    Rewrites r (a.stopWith reason) state (state.stopAttempt r reason) := by
  unfold HostState.stopAttempt Attempt.stopWith
  simp only [ha]
  split
  · have hsettled := (settle_rewrites ha (stopTerminal a.run reason)).1
    exact hsettled.trans (modify_rewrites (hsettled.get ha) (·.abort reason))
  · exact .refl ha

end

structure OwnStep (world next : World) (i r : Nat) (after : Stream × Attempt) : Prop where
  host : Rewrites r after.2 world.host next.host
  streams : next.streams = world.streams.set i after.1

section

variable {world : World} {i r : Nat} {stream : Stream} {a : Attempt}

theorem OwnStep.put {host : HostState} (h : Rewrites r a world.host host) (executed : List Nat)
    (reported : List (Nat × BackendEvent)) (after : Stream) :
    OwnStep world ({ world with host, executed, reported }.put i after) i r (after, a) := ⟨h, rfl⟩

theorem finish_own {host : HostState} (ha : host.attempts[r]? = some a) (hhost : Rewrites r a world.host host)
    (executed : List Nat) (message code : String) :
    OwnStep world ({ world with host, executed }.finish i stream r message code) i r
      (stream.finishOwn a message code) := by
  obtain ⟨hsettled, hterminal⟩ := settle_rewrites ha (failureTerminal a.run message code)
  have hnumbered := modify_rewrites (hsettled.get ha) fun a => { a with terminalSequence := some stream.sequence }
  unfold World.finish
  simp only [ha, hterminal]
  exact ⟨hhost.trans (hsettled.trans hnumbered), rfl⟩

theorem leave_own {host : HostState} (h : Rewrites r a world.host host) :
    OwnStep world ({ world with host }.leave i stream) i r ({ stream with point := .over }, a) :=
  ⟨Rewrites.notifyIdle (h.idle (host.streams - 1) host.idle), rfl⟩

theorem disconnect_own (ha : world.host.attempts[r]? = some a) :
    OwnStep world (world.disconnect i stream r) i r (stream.disconnectOwn a) :=
  leave_own (stopAttempt_rewrites ha .disconnect)

theorem startBackend_own (ha : world.host.attempts[r]? = some a) (dial : Dial) :
    OwnStep world (world.startBackend i stream r a dial) i r (stream.startOwn a dial) := by
  unfold World.startBackend Stream.startOwn
  by_cases haborted : a.run.aborted.isSome = true
  · rw [if_pos haborted, if_pos haborted]
    exact .put (.refl ha) _ _ _
  rw [if_neg haborted, if_neg haborted]
  cases dial.current with
  | error message => exact finish_own ha (.refl ha) _ _ _
  | ok current =>
    simp only
    cases movedSinceAcceptance current a.run.deployment with
    | some message => exact .put (settle_rewrites ha (movedTerminal message)).1 _ _ _
    | none =>
      have hstarted := modify_rewrites ha (·.setState .started)
      cases dial.refusal with
      | none => exact .put hstarted _ _ _
      | some message => exact finish_own (hstarted.get ha) hstarted _ _ _

theorem onEvent_own (ha : world.host.attempts[r]? = some a) (event : BackendEvent) :
    OwnStep world (world.onEvent i stream r a event) i r (stream.onEventOwn a event) := by
  unfold World.onEvent Stream.onEventOwn
  by_cases hterminal : a.terminal.isSome = true
  · simp only [hterminal, if_true]
    exact .put (.refl ha) _ _ _
  simp only [hterminal, Bool.false_eq_true, if_false]
  cases event with
  | done result usage => exact .put (settle_rewrites ha (endTerminal a.run result usage)).1 _ _ _
  | content payload => exact .put (modify_rewrites ha (·.setState .emitting)) _ _ _

theorem closed_own (ha : world.host.attempts[r]? = some a) (leaving : Leaving) (failure : Option String) :
    OwnStep world (world.closed i stream r leaving failure) i r (stream.closedOwn a leaving failure) := by
  cases leaving with
  | breaks =>
    cases failure with
    | none => exact finish_own ha (.refl ha) _ _ _
    | some message => exact finish_own ha (.refl ha) _ _ _
  | returns =>
    cases failure with
    | none => exact disconnect_own ha
    | some message => exact finish_own ha (.refl ha) _ _ _
  | throws message => exact finish_own ha (.refl ha) _ _ _

/-- Both are not defined, or the step is the machine's. -/
def Matches (world : World) (i r : Nat) : Option World → Option (Stream × Attempt) → Prop :=
  Option.Rel fun next after => OwnStep world next i r after

theorem onBackend_own (ha : world.host.attempts[r]? = some a) (dialled : Bool) (report : BackendStep) :
    Matches world i r (world.onBackend i stream r a dialled report) (stream.onBackendOwn a dialled report) := by
  cases report with
  | ends =>
    cases dialled with
    | true => exact .some (finish_own ha (.refl ha) _ _ _)
    | false => exact .some (finish_own ha (.refl ha) _ _ _)
  | event event =>
    cases dialled with
    | true => exact .some (onEvent_own ha event)
    | false => exact .none
  | throws message =>
    cases dialled with
    | true => exact .some (finish_own ha (.refl ha) _ _ _)
    | false => exact .none

theorem pull_own (ha : world.host.attempts[r]? = some a) (pull : Pull) :
    Matches world i r (world.pullAttempt i stream r a pull) (stream.pullOwn a pull) := by
  unfold World.pullAttempt Stream.pullOwn
  cases stream.point with
  | accepted =>
    cases pull with
    | next dial => exact .some (startBackend_own ha dial)
    | returns => exact .some (disconnect_own ha)
    | throws message => exact .some (finish_own ha (.refl ha) _ _ _)
  | emitted =>
    cases pull with
    | next dial => exact .some (.put (.refl ha) _ _ _)
    | returns => exact .some (.put (.refl ha) _ _ _)
    | throws message => exact .some (.put (.refl ha) _ _ _)
  | terminal => exact .some (leave_own (.refl ha))
  | _ => exact .none

theorem signal_own (hattempt : stream.attempt = some r) (ha : world.host.attempts[r]? = some a) :
    OwnStep world (world.signal i stream) i r (stream.signalOwn a) := by
  have hstopped := stopAttempt_rewrites ha .disconnect
  unfold World.signal Stream.signalOwn
  rw [hattempt]
  cases stream.point with
  | accepted => exact ⟨hstopped, rfl⟩
  | awaiting dialled => exact ⟨hstopped, rfl⟩
  | emitted => exact ⟨hstopped, rfl⟩
  | closing leaving => exact ⟨hstopped, rfl⟩
  | _ => exact ⟨.refl ha, rfl⟩

theorem step_own (options : HostOptions) (hstream : world.streams[i]? = some stream) (hattempt : stream.attempt = some r)
    (ha : world.host.attempts[r]? = some a) (move : StreamMove) :
    Matches world i r (step options world (move.action i)) (stream.move a move) := by
  cases move with
  | pull pull =>
    simp only [StreamMove.action, step, hstream, bind_some, World.pull, hattempt, ha]
    exact pull_own ha pull
  | signal =>
    simp only [StreamMove.action, step, hstream, map_some]
    exact .some (signal_own hattempt ha)
  | backend report =>
    simp only [StreamMove.action, step, hstream, bind_some, hattempt, Stream.move]
    cases stream.point with
    | awaiting dialled =>
      simp only [ha, bind_some]
      exact onBackend_own ha dialled report
    | _ => exact .none
  | closed failure =>
    simp only [StreamMove.action, step, hstream, bind_some, hattempt, Stream.move]
    cases stream.point with
    | closing leaving => exact .some (closed_own ha leaving failure)
    | _ => exact .none

end

/-- A record without what the rest of the host decides: the place of its owner and the number of its admission. -/
def Attempt.view (a : Attempt) : Attempt := { a with owner := 0, admission := 0 }

def Stream.view (stream : Stream) : Stream := { stream with attempt := none }

def viewOwn (x : Stream × Attempt) : Stream × Attempt := (x.1.view, x.2.view)

structure SameOwn (before after : Stream × Attempt) : Prop where
  claims : after.1.claims = before.1.claims
  attempt : after.1.attempt = before.1.attempt
  record : SameName before.2 after.2

section

variable (stream : Stream) (a : Attempt)

theorem settleTo_view (terminal : Terminal) : (a.settleTo terminal).view = a.view.settleTo terminal := by
  unfold Attempt.settleTo
  cases hterminal : a.terminal with
  | none => simp [Attempt.view, Attempt.settle, hterminal]
  | some recorded => simp [Attempt.view, hterminal]

theorem stopWith_view (reason : StopReason) : (a.stopWith reason).view = a.view.stopWith reason := by
  unfold Attempt.stopWith
  have hsettled := settleTo_view a (stopTerminal a.run reason)
  cases hrunning : a.running with
  | false => simp [Attempt.view, hrunning]
  | true =>
    simp only [Attempt.view, hrunning, if_true] at hsettled ⊢
    rw [← hsettled]
    rfl

theorem finishOwn_view (message code : String) :
    viewOwn (stream.finishOwn a message code) = stream.view.finishOwn a.view message code := by
  have hsettled := settleTo_view a (failureTerminal a.run message code)
  have hrecord : { a.settleTo (failureTerminal a.run message code) with
        terminalSequence := some stream.sequence }.view =
      { a.view.settleTo (failureTerminal a.run message code) with terminalSequence := some stream.sequence } := by
    rw [← hsettled]
    rfl
  exact Prod.ext rfl hrecord

theorem startOwn_view (dial : Dial) : viewOwn (stream.startOwn a dial) = stream.view.startOwn a.view dial := by
  unfold Stream.startOwn
  by_cases haborted : a.run.aborted.isSome = true
  · rw [if_pos haborted, if_pos (show a.view.run.aborted.isSome = true from haborted)]
    rfl
  rw [if_neg haborted, if_neg (show ¬ a.view.run.aborted.isSome = true from haborted)]
  cases dial.current with
  | error message => exact finishOwn_view stream a message _
  | ok current =>
    simp only [show a.view.run.deployment = a.run.deployment from rfl]
    cases movedSinceAcceptance current a.run.deployment with
    | some message => exact Prod.ext rfl (settleTo_view a (movedTerminal message))
    | none =>
      cases dial.refusal with
      | none => rfl
      | some message => exact finishOwn_view stream (a.setState .started) message _

theorem onEventOwn_view (event : BackendEvent) : viewOwn (stream.onEventOwn a event) = stream.view.onEventOwn a.view event := by
  unfold Stream.onEventOwn
  by_cases hterminal : a.terminal.isSome = true
  · rw [if_pos hterminal, if_pos (show a.view.terminal.isSome = true from hterminal)]
    rfl
  rw [if_neg hterminal, if_neg (show ¬ a.view.terminal.isSome = true from hterminal)]
  cases event with
  | done result usage => exact Prod.ext rfl (settleTo_view a (endTerminal a.run result usage))
  | content payload => rfl

theorem closedOwn_view (leaving : Leaving) (failure : Option String) :
    viewOwn (stream.closedOwn a leaving failure) = stream.view.closedOwn a.view leaving failure := by
  have hstopped := stopWith_view a .disconnect
  cases leaving with
  | breaks =>
    cases failure with
    | none => exact finishOwn_view stream a _ _
    | some message => exact finishOwn_view stream a _ _
  | returns =>
    cases failure with
    | none => exact Prod.ext rfl hstopped
    | some message => exact finishOwn_view stream a _ _
  | throws message => exact finishOwn_view stream a _ _

theorem pullOwn_view (pull : Pull) :
    (stream.pullOwn a pull).map viewOwn = stream.view.pullOwn a.view pull := by
  have hstopped := stopWith_view a .disconnect
  unfold Stream.pullOwn
  rw [show stream.view.point = stream.point from rfl]
  cases stream.point with
  | accepted =>
    cases pull with
    | next dial => exact congrArg some (startOwn_view stream a dial)
    | returns => exact congrArg some (Prod.ext rfl hstopped)
    | throws message => exact congrArg some (finishOwn_view stream a _ _)
  | emitted =>
    cases pull with
    | next dial => rfl
    | returns => rfl
    | throws message => rfl
  | terminal => rfl
  | _ => rfl

theorem signalOwn_view : viewOwn (stream.signalOwn a) = stream.view.signalOwn a.view := by
  have hstopped := stopWith_view a .disconnect
  unfold Stream.signalOwn
  rw [show stream.view.point = stream.point from rfl]
  cases stream.point with
  | accepted => exact Prod.ext rfl hstopped
  | awaiting dialled => exact Prod.ext rfl hstopped
  | emitted => exact Prod.ext rfl hstopped
  | closing leaving => exact Prod.ext rfl hstopped
  | _ => rfl

/-- The machine reads neither the place of the attempt nor the rest of the host. -/
theorem move_view (move : StreamMove) : (stream.move a move).map viewOwn = stream.view.move a.view move := by
  cases move with
  | pull pull => exact pullOwn_view stream a pull
  | signal => exact congrArg some (signalOwn_view stream a)
  | backend report =>
    unfold Stream.move
    rw [show stream.view.point = stream.point from rfl]
    cases stream.point with
    | awaiting dialled =>
      cases report with
      | ends =>
        cases dialled with
        | true => exact congrArg some (finishOwn_view stream a _ _)
        | false => exact congrArg some (finishOwn_view stream a _ _)
      | event event =>
        cases dialled with
        | true => exact congrArg some (onEventOwn_view stream a event)
        | false => rfl
      | throws message =>
        cases dialled with
        | true => exact congrArg some (finishOwn_view stream a _ _)
        | false => rfl
    | _ => rfl
  | closed failure =>
    unfold Stream.move
    rw [show stream.view.point = stream.point from rfl]
    cases stream.point with
    | closing leaving => exact congrArg some (closedOwn_view stream a leaving failure)
    | _ => rfl

end

section

variable (stream : Stream) (a : Attempt)

theorem settleTo_same (terminal : Terminal) : SameName a (a.settleTo terminal) := by
  unfold Attempt.settleTo
  split
  · exact .refl a
  · exact ⟨a.settle_sameIds terminal, rfl⟩

theorem stopWith_same (reason : StopReason) : SameName a (a.stopWith reason) := by
  unfold Attempt.stopWith
  split
  · obtain ⟨⟨hid, howner, htenant, hcancelId⟩, hadmission⟩ := settleTo_same a (stopTerminal a.run reason)
    exact ⟨⟨hid, howner, htenant, hcancelId⟩, hadmission⟩
  · exact .refl a

theorem finishOwn_same (message code : String) : SameOwn (stream, a) (stream.finishOwn a message code) := by
  obtain ⟨⟨hid, howner, htenant, hcancelId⟩, hadmission⟩ := settleTo_same a (failureTerminal a.run message code)
  exact ⟨rfl, rfl, ⟨hid, howner, htenant, hcancelId⟩, hadmission⟩

theorem disconnectOwn_same : SameOwn (stream, a) (stream.disconnectOwn a) := ⟨rfl, rfl, stopWith_same a _⟩

theorem startOwn_same (dial : Dial) : SameOwn (stream, a) (stream.startOwn a dial) := by
  unfold Stream.startOwn
  split
  · exact ⟨rfl, rfl, .refl a⟩
  split
  · exact finishOwn_same stream a _ _
  split
  · exact ⟨rfl, rfl, settleTo_same a _⟩
  split
  · exact ⟨rfl, rfl, ⟨rfl, rfl, rfl, rfl⟩, rfl⟩
  obtain ⟨hclaims, hattempt, ⟨hid, howner, htenant, hcancelId⟩, hadmission⟩ :=
    finishOwn_same stream (a.setState .started) _ _
  exact ⟨hclaims, hattempt, ⟨hid, howner, htenant, hcancelId⟩, hadmission⟩

theorem onEventOwn_same (event : BackendEvent) : SameOwn (stream, a) (stream.onEventOwn a event) := by
  unfold Stream.onEventOwn
  split
  · exact ⟨rfl, rfl, .refl a⟩
  split
  · exact ⟨rfl, rfl, settleTo_same a _⟩
  · exact ⟨rfl, rfl, ⟨rfl, rfl, rfl, rfl⟩, rfl⟩

theorem closedOwn_same (leaving : Leaving) (failure : Option String) :
    SameOwn (stream, a) (stream.closedOwn a leaving failure) := by
  unfold Stream.closedOwn
  split
  · exact finishOwn_same stream a _ _
  · exact disconnectOwn_same stream a
  · exact finishOwn_same stream a _ _
  · exact finishOwn_same stream a _ _
  · exact finishOwn_same stream a _ _

variable {stream a}

theorem onBackendOwn_same {dialled : Bool} {report : BackendStep} {after : Stream × Attempt}
    (h : stream.onBackendOwn a dialled report = some after) : SameOwn (stream, a) after := by
  unfold Stream.onBackendOwn at h
  split at h
  · cases h
    exact finishOwn_same stream a _ _
  · cases h
    exact onEventOwn_same stream a _
  · cases h
    exact finishOwn_same stream a _ _
  · cases h

theorem pullOwn_same {pull : Pull} {after : Stream × Attempt} (h : stream.pullOwn a pull = some after) :
    SameOwn (stream, a) after := by
  unfold Stream.pullOwn at h
  split at h
  · cases h
    exact startOwn_same stream a _
  · cases h
    exact disconnectOwn_same stream a
  · cases h
    exact finishOwn_same stream a _ _
  · cases h
    exact ⟨rfl, rfl, .refl a⟩
  · cases h
    exact ⟨rfl, rfl, .refl a⟩
  · cases h
    exact ⟨rfl, rfl, .refl a⟩
  · cases h
    exact ⟨rfl, rfl, .refl a⟩
  · cases h

theorem move_same {move : StreamMove} {after : Stream × Attempt} (h : stream.move a move = some after) :
    SameOwn (stream, a) after := by
  unfold Stream.move at h
  split at h
  · exact pullOwn_same h
  · cases h
    unfold Stream.signalOwn
    split
    · exact ⟨rfl, rfl, stopWith_same a _⟩
    · exact ⟨rfl, rfl, stopWith_same a _⟩
    · exact ⟨rfl, rfl, stopWith_same a _⟩
    · exact ⟨rfl, rfl, stopWith_same a _⟩
    · exact ⟨rfl, rfl, .refl a⟩
  · split at h
    · exact onBackendOwn_same h
    · cases h
  split at h
  · cases h
    exact closedOwn_same stream a _ _
  · cases h

end

end llamactl.inference
