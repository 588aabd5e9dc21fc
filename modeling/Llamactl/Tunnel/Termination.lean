import Llamactl.Tunnel.NodeStream

open effect List

namespace llamactl.tunnel.node

variable {V : Type} {limits : StreamLimits}

def framesOf (id : String) (frames : List (Frame V)) : List (Frame V) := frames.filter fun frame => frame.id = id

/-- The events of a subscription, numbered from zero. -/
def events (id : String) (data : List V) : List (Frame V) := data.mapIdx (Frame.event id)

/-- The connection that brought the subscription is still the client's. -/
def Client.Connected (client : Client V) (bridge : Bridge) : Prop :=
  bridge.connection = client.connections ∧ client.socket = .ready

/-- A `stream-done` that acknowledges a cancel. -/
def CancelAck (ok : Bool) (error : Option StreamError) : Prop :=
  ok = false ∧ ∃ message, error = some ⟨TUNNEL_STREAM_CANCELLED, message⟩

/-- The stream protocol of one accepted subscription. -/
structure Terminates (client : Client V) (id : String) (bridge : Bridge) : Prop where
  /-- Events without gaps, then at most one `stream-done`. -/
  shape : ∃ data tail, framesOf id client.frames = events id data ++ tail ∧
    (tail = [] ∨ ∃ ok error, tail = [.done id ok error])
  /-- A stream that ended has its `stream-done`, while its socket stays open. -/
  ended : client.Connected bridge → bridge.pump.isReturned = true → ∃ ok error, .done id ok error ∈ client.frames
  notEarly : ∀ ok error, .done id ok error ∈ client.frames → bridge.pump.isReturned = true
  /-- A stream that a cancel stopped ends typed. -/
  typed : bridge.pump = .returned true → ∀ ok error, .done id ok error ∈ client.frames → CancelAck ok error
  released : ∀ ok error, .done id ok error ∈ client.frames → bridge.active = false ∧ bridge.inFlight = false

/-- `createContext` does not throw, and a procedure that was cancelled before it resolved gives
an iterable, or throws. -/
def Regular (client : Client V) : Action V → Prop
  | .request _ _ (.contextThrows _) => False
  | .progress id (.resolves false) => ∀ bridge, client.bridges id = some bridge → bridge.cancelled = false
  | _ => True

/-- What a subscription can do next, with the frames it ships. -/
inductive Advance (socket : Socket) (id : String) (bridge : Bridge) : Bridge × List (Frame V) → Prop where
  | quiet (pump : Pump) (running : pump.isReturned = false) : Advance socket id bridge ({ bridge with pump }, [])
  | event (data : V) (aborted : bridge.aborted = false) : Advance socket id bridge (bridge.onEvent socket id data)
  | terminal (aborted stopped ok : Bool) (error : Option StreamError) (typed : stopped = true → CancelAck ok error) :
      Advance socket id bridge
        ({ bridge with pump := .returned stopped, settled := true, aborted, active := false, inFlight := false },
          socket.send (.done id ok error))

section

variable {socket : Socket} {id : String} {bridge : Bridge} {result : Bridge × List (Frame V)}

theorem Advance.safeError (hsettled : bridge.settled = false) {stopped : Bool} (hstopped : stopped = false)
    (aborted : Bool) (failure : Failure) :
    Advance socket id bridge
      (({ bridge with pump := .returned stopped, aborted } : Bridge).safeError (V := V) socket id failure) := by
  subst hstopped
  have h : Advance socket id bridge (_, _) := .terminal (V := V) aborted false false
    (some ⟨failure.code.getD "subscription-error", failure.message⟩) (fun h => by cases h)
  simpa [Bridge.safeError, Bridge.onError, hsettled] using h

theorem Advance.finish (hsettled : bridge.settled = false) {stopped : Bool} (hstopped : bridge.cancelled = stopped) :
    Advance socket id bridge (({ bridge with pump := .returned stopped } : Bridge).finish (V := V) socket id) := by
  cases stopped with
  | true =>
    have h : Advance socket id bridge (_, _) := .terminal (V := V) bridge.aborted true false
      (some ⟨TUNNEL_STREAM_CANCELLED, s!"subscription '{bridge.method}' cancelled"⟩) (fun _ => ⟨rfl, _, rfl⟩)
    simpa [Bridge.finish, Bridge.safeError, Bridge.onError, hsettled, hstopped] using h
  | false =>
    have h : Advance socket id bridge (_, _) := .terminal (V := V) bridge.aborted false true none (fun h => by cases h)
    simpa [Bridge.finish, Bridge.onComplete, hsettled, hstopped] using h

theorem Advance.caught (hsettled : bridge.settled = false) (failure : Failure) :
    Advance socket id bridge (bridge.caught (V := V) socket id failure) := by
  unfold Bridge.caught
  split
  · exact .safeError hsettled rfl true failure
  split
  · exact .finish hsettled rfl
  · exact .safeError hsettled rfl bridge.aborted failure

theorem advance_cases {progress : Progress V} (hsettled : bridge.settled = false)
    (hiterable : progress = .resolves false → bridge.cancelled = false)
    (hadvance : bridge.advance limits socket id progress = some result) : Advance socket id bridge result := by
  unfold Bridge.advance at hadvance
  split at hadvance
  case h_1 =>
    split at hadvance
    · cases hadvance
      exact .finish hsettled ‹_›
    · cases hadvance
      exact .safeError hsettled rfl bridge.aborted _
  case h_2 =>
    cases hadvance
    exact .quiet _ rfl
  case h_3 =>
    cases hadvance
    exact .safeError hsettled (hiterable rfl) bridge.aborted _
  case h_4 =>
    split at hadvance
    · cases hadvance
      exact .quiet _ rfl
    rename_i hrunning
    split at hadvance
    · cases hadvance
      exact .quiet _ rfl
    split at hadvance
    · cases hadvance
      exact .quiet _ rfl
    · cases hadvance
      exact .event _ (by simpa using hrunning)
  case h_5 | h_7 =>
    cases hadvance
    exact .finish hsettled rfl
  case h_6 | h_8 | h_9 =>
    cases hadvance
    exact .caught hsettled _
  case h_10 => cases hadvance

theorem advance_returned {progress : Progress V} (hreturned : bridge.pump.isReturned = true) :
    bridge.advance limits socket id progress = none := by
  cases hpump : bridge.pump with
  | returned stopped => simp [Bridge.advance, hpump]
  | calling | looping | breaking | closing => simp [hpump, Pump.isReturned] at hreturned

end

/-- The two stretches of a subscription's life, by the frames it has shipped. -/
inductive Sound (frames : List (Frame V)) (connected : Prop) (id : String) (bridge : Bridge) : Prop where
  | running (data : List V)
      (settled : bridge.settled = false) (pump : bridge.pump.isReturned = false)
      (frames : frames = events id data)
      (live : bridge.cancelled = false →
        bridge.active = true ∧ bridge.aborted = false ∧ data.length = bridge.index ∧ connected)
      (gone : bridge.cancelled = true → bridge.active = false ∧ bridge.aborted = true)
  | closed (data : List V) (tail : List (Frame V)) (stopped : Bool)
      (settled : bridge.settled = true) (pump : bridge.pump = .returned stopped)
      (active : bridge.active = false) (inFlight : bridge.inFlight = false)
      (frames : frames = events id data ++ tail)
      (tail : tail = [] ∧ ¬connected ∨ ∃ ok error, tail = [.done id ok error] ∧ (stopped = true → CancelAck ok error))

/-- A subscription of the client; a connection that was lost does not come back. -/
structure Known (client : Client V) (id : String) (bridge : Bridge) : Prop where
  requested : id ∈ client.requested
  connection : bridge.connection ≤ client.connections
  own : bridge.connection = client.connections → client.socket = .ready ∨ client.socket = .closed
  sound : Sound (framesOf id client.frames) (client.Connected bridge) id bridge

structure Inv (client : Client V) : Prop where
  framed : ∀ frame ∈ client.frames, frame.id ∈ client.requested
  known : ∀ id bridge, client.bridges id = some bridge → Known client id bridge

section

variable {client next : Client V} {id : String} {bridge : Bridge}

@[simp] theorem framesOf_append (id : String) (frames more : List (Frame V)) :
    framesOf id (frames ++ more) = framesOf id frames ++ framesOf id more := filter_append ..

theorem events_append (id : String) (data : List V) (last : V) :
    events id (data ++ [last]) = events id data ++ [.event id data.length last] := by
  simp [events, mapIdx_append]

theorem framesOf_send_other (socket : Socket) (frame : Frame V) (h : id ≠ frame.id) :
    framesOf id (socket.send frame) = [] := by
  unfold Socket.send
  split
  · simp [framesOf, Ne.symm h]
  · rfl

theorem send_ready (frame : Frame V) : Socket.send .ready frame = [frame] := rfl

theorem Inv.framesOf_fresh (hinv : Inv client) (hfresh : id ∉ client.requested) : framesOf id client.frames = [] := by
  unfold framesOf
  rw [filter_eq_nil_iff]
  intro frame hmem hid
  have hrequested := hinv.framed frame hmem
  simp only [decide_eq_true_eq] at hid
  rw [hid] at hrequested
  exact hfresh hrequested

/-- What the client's protocol says of one subscription, from what is known of it. -/
theorem Known.terminates (hknown : Known client id bridge) : Terminates client id bridge := by
  have hmem : ∀ ok error, Frame.done id ok error ∈ client.frames →
      Frame.done id ok error ∈ framesOf id client.frames := by
    intro ok error h
    exact mem_filter.mpr ⟨h, by simp [Frame.id]⟩
  have hevents : ∀ (data : List V) ok error, Frame.done id ok error ∉ events id data := by
    intro data ok error h
    obtain ⟨index, hindex, heq⟩ := mem_mapIdx.mp h
    cases heq
  cases hknown.sound with
  | running data hsettled hpump hframes hlive hgone =>
    have hnone : ∀ ok error, Frame.done id ok error ∉ client.frames := by
      intro ok error h
      have h := hmem ok error h
      rw [hframes] at h
      exact hevents data ok error h
    refine ⟨⟨data, [], by simpa using hframes, .inl rfl⟩, ?_, ?_, ?_, ?_⟩
    · intro _ hreturned
      rw [hpump] at hreturned
      cases hreturned
    · exact fun ok error h => absurd h (hnone ok error)
    · exact fun _ ok error h => absurd h (hnone ok error)
    · exact fun ok error h => absurd h (hnone ok error)
  | closed data tail stopped hsettled hpump hactive hinFlight hframes htail =>
    have hreturned : bridge.pump.isReturned = true := by rw [hpump]; rfl
    refine ⟨⟨data, tail, hframes, ?_⟩, ?_, fun _ _ _ => hreturned, ?_, fun _ _ _ => ⟨hactive, hinFlight⟩⟩
    · rcases htail with ⟨h, -⟩ | ⟨ok, error, h, -⟩
      · exact .inl h
      · exact .inr ⟨ok, error, h⟩
    · intro hconnected _
      rcases htail with ⟨-, h⟩ | ⟨ok, error, rfl, -⟩
      · exact absurd hconnected h
      refine ⟨ok, error, ?_⟩
      have h : Frame.done id ok error ∈ framesOf id client.frames := by simp [hframes]
      exact (mem_filter.mp h).1
    intro hstopped ok error h
    have h := hmem ok error h
    rw [hframes, mem_append] at h
    rcases htail with ⟨rfl, -⟩ | ⟨ok', error', rfl, htyped⟩
    · simp [hevents] at h
    have h := mem_singleton.mp (h.resolve_left (hevents data ok error))
    cases h
    rw [hpump] at hstopped
    cases hstopped
    exact htyped rfl

theorem framesOf_eq_self {frames : List (Frame V)} (h : ∀ frame ∈ frames, frame.id = id) :
    framesOf id frames = frames := by
  unfold framesOf
  rw [filter_eq_self]
  exact fun frame hmem => by simp [h frame hmem]

theorem framesOf_eq_nil {other : String} {frames : List (Frame V)} (h : ∀ frame ∈ frames, frame.id = id)
    (hother : other ≠ id) : framesOf other frames = [] := by
  unfold framesOf
  rw [filter_eq_nil_iff]
  exact fun frame hmem => by simp [h frame hmem, Ne.symm hother]

/-- A step of one subscription leaves what is known of the others. -/
theorem Inv.setBridge {frames : List (Frame V)} (hinv : Inv client) (hframes : ∀ frame ∈ frames, frame.id = id)
    (hrequested : id ∈ client.requested) (hconnection : bridge.connection ≤ client.connections)
    (hown : bridge.connection = client.connections → client.socket = .ready ∨ client.socket = .closed)
    (hsound : Sound (framesOf id client.frames ++ frames) (client.Connected bridge) id bridge) :
    Inv (client.setBridge id bridge frames) := by
  refine ⟨?_, ?_⟩
  · intro frame hmem
    rcases mem_append.mp hmem with h | h
    · exact hinv.framed frame h
    · rw [hframes frame h]
      exact hrequested
  intro other found hfound
  by_cases hid : other = id
  · subst hid
    simp only [Client.setBridge, Function.update_self, Option.some.injEq] at hfound
    subst hfound
    refine ⟨hrequested, hconnection, hown, ?_⟩
    have hof : framesOf other (client.setBridge other bridge frames).frames = framesOf other client.frames ++ frames := by
      simp only [Client.setBridge, framesOf_append, framesOf_eq_self hframes]
    rw [hof]
    exact hsound
  simp only [Client.setBridge, Function.update_of_ne hid] at hfound
  obtain ⟨hrequested', hconnection', hown', hsound'⟩ := hinv.known other found hfound
  refine ⟨hrequested', hconnection', hown', ?_⟩
  have hof : framesOf other (client.setBridge id bridge frames).frames = framesOf other client.frames := by
    simp only [Client.setBridge, framesOf_append, framesOf_eq_nil hframes hid, append_nil]
  rw [hof]
  exact hsound'

theorem send_id {socket : Socket} {frame : Frame V} : ∀ sent ∈ socket.send frame, sent.id = frame.id := by
  unfold Socket.send
  intro sent hmem
  split at hmem
  · rw [mem_singleton.mp hmem]
  · cases hmem

/-- Every step of a running subscription keeps its protocol. -/
theorem Inv.advance {result : Bridge × List (Frame V)} (hinv : Inv client) (hbridge : client.bridges id = some bridge)
    (hrunning : bridge.settled = false) (hadvance : Advance client.socket id bridge result) :
    Inv (client.setBridge id result.1 result.2) := by
  obtain ⟨hrequested, hconnection, hown, hsound⟩ := hinv.known id bridge hbridge
  cases hsound with
  | closed data tail stopped hsettled =>
    rw [hrunning] at hsettled
    cases hsettled
  | running data hsettled hpump hframes hlive hgone =>
    cases hadvance with
    | quiet pump hpump' =>
      refine hinv.setBridge (by simp) hrequested hconnection hown ?_
      exact .running data hsettled hpump' (by simpa using hframes) hlive hgone
    | event value haborted =>
      have hcancelled : bridge.cancelled = false := by
        cases h : bridge.cancelled with
        | false => rfl
        | true => simp [(hgone h).2] at haborted
      obtain ⟨hactive, -, hindex, hconnected⟩ := hlive hcancelled
      have hevent : bridge.onEvent client.socket id value =
          ({ bridge with index := bridge.index + 1 }, [.event id bridge.index value]) := by
        simp [Bridge.onEvent, hconnected.2, send_ready]
      rw [hevent]
      refine hinv.setBridge (by simp [Frame.id]) hrequested hconnection hown ?_
      refine .running (data ++ [value]) hsettled hpump ?_ ?_ ?_
      · rw [hframes, events_append, hindex]
      · exact fun _ => ⟨hactive, haborted, by simp [hindex], hconnected⟩
      · simp [hcancelled]
    | terminal aborted stopped ok error htyped =>
      refine hinv.setBridge send_id hrequested hconnection hown ?_
      refine .closed data _ stopped rfl rfl rfl rfl (by rw [hframes]) ?_
      by_cases hsends : client.socket.sends = true
      · exact .inr ⟨ok, error, by simp [Socket.send, hsends], htyped⟩
      refine .inl ⟨by simp [Socket.send, hsends], ?_⟩
      rintro ⟨-, hready⟩
      simp [hready, Socket.sends] at hsends

/-- A change of the socket alone that leaves no subscription connected. -/
theorem Inv.reconnect (hinv : Inv client) (hframes : next.frames = client.frames)
    (hrequested : next.requested = client.requested) (hbridges : next.bridges = client.bridges)
    (hconnections : client.connections ≤ next.connections)
    (hlost : ∀ id bridge, client.bridges id = some bridge → ¬client.Connected bridge)
    (hgone : ∀ id bridge, client.bridges id = some bridge → bridge.connection ≠ next.connections) : Inv next := by
  refine ⟨?_, ?_⟩
  · intro frame hmem
    rw [hframes] at hmem
    rw [hrequested]
    exact hinv.framed frame hmem
  intro id bridge hbridge
  rw [hbridges] at hbridge
  obtain ⟨hrequested', hconnection, -, hsound⟩ := hinv.known id bridge hbridge
  refine ⟨hrequested ▸ hrequested', hconnection.trans hconnections, fun h => absurd h (hgone id bridge hbridge), ?_⟩
  have hconnected : next.Connected bridge ↔ client.Connected bridge :=
    iff_of_false (fun h => hgone id bridge hbridge h.1) (hlost id bridge hbridge)
  rw [hframes, propext hconnected]
  exact hsound

theorem cleanup_sound {frames : List (Frame V)} {connected : Prop} (hsound : Sound frames connected id bridge) :
    Sound frames False id (Client.cleanup bridge) := by
  cases hsound with
  | running data hsettled hpump hframes hlive hgone =>
    cases hcancelled : bridge.cancelled with
    | false =>
      obtain ⟨hactive, -, -, -⟩ := hlive hcancelled
      refine .running data ?_ ?_ hframes ?_ ?_
      all_goals simp [Client.cleanup, Bridge.cancel, hactive, hsettled, hpump]
    | true =>
      obtain ⟨hactive, haborted⟩ := hgone hcancelled
      refine .running data ?_ ?_ hframes ?_ ?_
      all_goals simp [Client.cleanup, hactive, hsettled, hpump, hcancelled, haborted]
  | closed data tail stopped hsettled hpump hactive hinFlight hframes htail =>
    refine .closed data tail stopped ?_ ?_ ?_ ?_ hframes ?_
    · simp [Client.cleanup, hactive, hsettled]
    · simp [Client.cleanup, hactive, hpump]
    · simp [Client.cleanup]
    · simp [Client.cleanup]
    rcases htail with ⟨h, -⟩ | h
    · exact .inl ⟨h, not_false⟩
    · exact .inr h

theorem Inv.cleanupSocket (hinv : Inv client) : Inv client.cleanupSocket := by
  refine ⟨hinv.framed, ?_⟩
  intro id bridge hbridge
  obtain ⟨before, hbefore, rfl⟩ := Option.map_eq_some_iff.mp hbridge
  obtain ⟨hrequested, hconnection, -, hsound⟩ := hinv.known id before hbefore
  have hsame : (Client.cleanup before).connection = before.connection := by
    unfold Client.cleanup
    dsimp only
    split <;> rfl
  refine ⟨hrequested, hsame ▸ hconnection, fun _ => .inr rfl, ?_⟩
  have hlost : client.cleanupSocket.Connected (Client.cleanup before) ↔ False := by
    simp [Client.Connected, Client.cleanupSocket]
  rw [propext hlost]
  exact cleanup_sound hsound

theorem Inv.handleStreamCancel (hinv : Inv client) (id : String) : Inv (client.handleStreamCancel id) := by
  unfold Client.handleStreamCancel
  split
  · rename_i bridge hbridge
    split
    · rename_i hactive
      obtain ⟨hrequested, hconnection, hown, hsound⟩ := hinv.known id bridge hbridge
      refine hinv.setBridge (by simp) hrequested hconnection hown ?_
      rw [append_nil]
      cases hsound with
      | closed _ _ _ _ _ h => simp [hactive] at h
      | running data hsettled hpump hframes hlive hgone =>
        exact .running data hsettled hpump hframes (fun h => by cases h) (fun _ => ⟨rfl, rfl⟩)
    · exact hinv
  · exact hinv

theorem Inv.request (hinv : Inv client) (id : String) :
    Inv { client with requested := id :: client.requested } := by
  refine ⟨fun frame hmem => mem_cons_of_mem _ (hinv.framed frame hmem), ?_⟩
  intro other bridge hbridge
  obtain ⟨hrequested, hconnection, hown, hsound⟩ := hinv.known other bridge hbridge
  exact ⟨mem_cons_of_mem _ hrequested, hconnection, hown, hsound⟩

theorem Inv.refuse (hinv : Inv client) (hrequested : id ∈ client.requested)
    (hnew : ∀ bridge, client.bridges id ≠ some bridge) (code message : String) :
    Inv (client.refuse id code message) := by
  refine ⟨?_, ?_⟩
  · intro frame hmem
    rcases mem_append.mp hmem with h | h
    · exact hinv.framed frame h
    · rw [send_id frame h]
      exact hrequested
  intro other bridge hbridge
  obtain ⟨hrequested', hconnection, hown, hsound⟩ := hinv.known other bridge hbridge
  refine ⟨hrequested', hconnection, hown, ?_⟩
  have hid : other ≠ id := by
    rintro rfl
    exact hnew bridge hbridge
  have hof : framesOf other (client.refuse id code message).frames = framesOf other client.frames := by
    simp only [Client.refuse, framesOf_append, framesOf_send_other client.socket (.done id _ _) hid,
      append_nil]
  rw [hof]
  exact hsound

theorem Inv.doHandleSubscription {method : String} {intake : Intake} (hinv : Inv client)
    (hready : client.socket = .ready) (hfresh : id ∉ client.requested)
    (hregular : Regular client (.request id method intake)) :
    Inv ({ client with requested := id :: client.requested }.doHandleSubscription id method intake) := by
  have hnew : ∀ bridge, client.bridges id ≠ some bridge := fun bridge h => hfresh (hinv.known id bridge h).requested
  have hrequest := hinv.request id
  cases intake with
  | unsupported => exact hrequest.refuse mem_cons_self hnew _ _
  | handlerThrows message => exact hrequest.refuse mem_cons_self hnew _ _
  | contextThrows failure => exact absurd hregular not_false
  | calls =>
    refine hrequest.setBridge (by simp) mem_cons_self le_rfl (fun _ => .inl hready) ?_
    refine .running [] rfl rfl ?_ ?_ (fun h => by cases h)
    · simp [hinv.framesOf_fresh hfresh, events]
    · exact fun _ => ⟨rfl, rfl, rfl, rfl, hready⟩

theorem step_inv {action : Action V} (hinv : Inv client) (hregular : Regular client action)
    (hstep : step limits client action = some next) : Inv next := by
  cases action with
  | dial =>
    simp only [step] at hstep
    split at hstep
    · rename_i hclosed
      cases hstep
      refine hinv.reconnect rfl rfl rfl (Nat.le_succ _) ?_ ?_
      · rintro id bridge - ⟨-, h⟩
        simp [hclosed] at h
      · intro id bridge hbridge
        exact ((hinv.known id bridge hbridge).connection.trans_lt (Nat.lt_succ_self _)).ne
    · cases hstep
  | opens =>
    simp only [step] at hstep
    split at hstep
    · rename_i hdialing
      cases hstep
      refine hinv.reconnect rfl rfl rfl le_rfl ?_ ?_
      · rintro id bridge - ⟨-, h⟩
        simp [hdialing] at h
      · intro id bridge hbridge h
        simpa [hdialing] using (hinv.known id bridge hbridge).own h
    · cases hstep
  | acknowledge =>
    simp only [step] at hstep
    split at hstep
    · rename_i hopened
      cases hstep
      refine hinv.reconnect rfl rfl rfl le_rfl ?_ ?_
      · rintro id bridge - ⟨-, h⟩
        simp [hopened] at h
      · intro id bridge hbridge h
        simpa [hopened] using (hinv.known id bridge hbridge).own h
    · cases hstep
  | disconnect =>
    simp only [step] at hstep
    split at hstep
    · cases hstep
    · cases hstep
      exact hinv.cleanupSocket
  | request id method intake =>
    simp only [step] at hstep
    split at hstep
    · rename_i h
      cases hstep
      exact hinv.doHandleSubscription h.1 h.2 hregular
    · cases hstep
  | progress id progress =>
    simp only [step] at hstep
    split at hstep
    · cases hstep
    rename_i bridge hbridge
    obtain ⟨result, hadvance, rfl⟩ := Option.map_eq_some_iff.mp hstep
    have hsettled : bridge.settled = false := by
      cases (hinv.known id bridge hbridge).sound with
      | running _ h => exact h
      | closed _ _ _ _ h =>
        rw [advance_returned (by rw [h]; rfl)] at hadvance
        cases hadvance
    refine hinv.advance hbridge hsettled (advance_cases hsettled ?_ hadvance)
    rintro rfl
    exact hregular bridge hbridge
  | streamCancel id =>
    simp only [step] at hstep
    split at hstep
    · cases hstep
      exact hinv.handleStreamCancel id
    · cases hstep

/-- In every run of the node's side, every accepted subscription keeps the stream protocol. -/
theorem handleSubscription_terminates {actions : List (Action V)} (hregular : Along (step limits) Regular {} actions)
    (hrun : run (step limits) {} actions = some next) (hbridge : next.bridges id = some bridge) :
    Terminates next id bridge := by
  have hinit : Inv ({} : Client V) := ⟨fun _ h => (by cases h), fun _ _ h => (by cases h)⟩
  have hinv : Inv next := run_invariant (fun _ _ _ => step_inv) hinit hregular hrun
  exact (hinv.known id bridge hbridge).terminates

end

/-- Two events, and a cancel that stops the stream. -/
theorem handleSubscription_terminates_cancelled :
    ∃ next bridge, run (step ⟨10, 10⟩) ({} : Client Nat) [.dial, .opens, .acknowledge, .request "a" "m" .calls,
      .progress "a" (.resolves true), .progress "a" (.yields 7 (.ok 1)), .progress "a" (.yields 8 (.ok 1)),
      .streamCancel "a", .progress "a" .exhausted] = some next ∧ next.bridges "a" = some bridge ∧
      next.frames = [.event "a" 0 7, .event "a" 1 8,
        .done "a" false (some ⟨TUNNEL_STREAM_CANCELLED, "subscription 'm' cancelled"⟩)] ∧
      Terminates next "a" bridge := by
  have hregular : Along (step ⟨10, 10⟩) Regular ({} : Client Nat) [.dial, .opens, .acknowledge,
      .request "a" "m" .calls, .progress "a" (.resolves true), .progress "a" (.yields 7 (.ok 1)),
      .progress "a" (.yields 8 (.ok 1)), .streamCancel "a", .progress "a" .exhausted] := by
    repeat
      refine ⟨trivial, fun t ht => ?_⟩
      cases ht
    trivial
  exact ⟨_, _, rfl, rfl, rfl, handleSubscription_terminates hregular rfl rfl⟩

/-- `createContext` throws: the terminal callback runs inside `subscribe`, and the handle is
registered after its `stream-done`. -/
theorem handleSubscription_not_terminates :
    ∃ next bridge, run (step ⟨10, 10⟩) ({} : Client Nat) [.dial, .opens, .acknowledge,
      .request "a" "m" (.contextThrows ⟨none, "x"⟩)] = some next ∧ next.bridges "a" = some bridge ∧
      next.frames = [.done "a" false (some ⟨"subscription-error", "x"⟩)] ∧ bridge.active = true ∧
      ¬Terminates next "a" bridge := by
  refine ⟨_, _, rfl, rfl, rfl, rfl, fun h => ?_⟩
  have hreleased := h.released false (some ⟨"subscription-error", "x"⟩) mem_cons_self
  cases hreleased.1

end llamactl.tunnel.node
