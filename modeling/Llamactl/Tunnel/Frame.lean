import Llamactl.Js.JsonRoundTrip
import Llamactl.Js.Number
import Mathlib.Data.String.Basic

open List js Option

namespace llamactl.tunnel

def TUNNEL_MAX_FRAME_BYTES : Nat := 16 * 1024 * 1024

structure StreamLimits where
  maxFrameBytes : Nat
  maxQueuedBytes : Nat
  deriving DecidableEq

def TUNNEL_STREAM_OVERFLOW : String := "stream-overflow"

def TUNNEL_STREAM_CANCELLED : String := "stream-cancelled"

/-- The error object of a `stream-done` frame. -/
structure StreamError where
  code : String
  message : String
  deriving DecidableEq

def SERVICE_TOKEN_MAX_LENGTH : Nat := 1024

/-- The service token a worker-RPC request carries. -/
structure FrameAuth where
  serviceToken : List Nat
  relayPrincipal : List Nat

structure FrameError where
  code : List Nat
  message : List Nat

/-- The frames of the tunnel. Texts are code units; a field of type `unknown` is the JSON value
it is written as, `none` for `undefined`. -/
inductive TunnelMessage where
  | hello (bearer nodeName : List Nat)
  | helloAck (serverTime : List Nat)
  | req (id method : List Nat) (params : Option Json) (auth : Option FrameAuth)
  | res (id : List Nat) (result : Option Json) (error : Option FrameError)
  | ping (nonce : List Nat)
  | pong (nonce : List Nat)
  | streamEvent (id : List Nat) (index : Nat) (data : Option Json)
  | streamDone (id : List Nat) (ok : Bool) (error : Option FrameError)
  | streamCancel (id : List Nat)

def field (key : String) (value : Json) : List (List Nat × Json) := [(units key, value)]

/-- A field that is left out when it is `undefined`. -/
def optionalField (key : String) (value : Option Json) : List (List Nat × Json) :=
  match value with
  | some value => field key value
  | none => []

def FrameAuth.toJson (auth : FrameAuth) : Json :=
  .obj (field "serviceToken" (.str auth.serviceToken) ++ field "relayPrincipal" (.str auth.relayPrincipal))

def FrameError.toJson (error : FrameError) : Json :=
  .obj (field "code" (.str error.code) ++ field "message" (.str error.message))

def typed (kind : String) (fields : List (List Nat × Json)) : Json := .obj (field "type" (.str (units kind)) ++ fields)

def TunnelMessage.toJson : TunnelMessage → Json
  | .hello bearer nodeName => typed "hello" (field "bearer" (.str bearer) ++ field "nodeName" (.str nodeName))
  | .helloAck serverTime => typed "hello-ack" (field "serverTime" (.str serverTime))
  | .req id method params auth =>
    typed "req" (field "id" (.str id) ++ field "method" (.str method) ++ optionalField "params" params ++
      optionalField "auth" (auth.map FrameAuth.toJson))
  | .res id result error =>
    typed "res" (field "id" (.str id) ++ optionalField "result" result ++
      optionalField "error" (error.map FrameError.toJson))
  | .ping nonce => typed "ping" (field "nonce" (.str nonce))
  | .pong nonce => typed "pong" (field "nonce" (.str nonce))
  | .streamEvent id index data =>
    typed "stream-event" (field "id" (.str id) ++ field "index" (.num (Numeral.ofNat index)) ++ optionalField "data" data)
  | .streamDone id ok error =>
    typed "stream-done" (field "id" (.str id) ++ field "ok" (.bool ok) ++
      optionalField "error" (error.map FrameError.toJson))
  | .streamCancel id => typed "stream-cancel" (field "id" (.str id))

/-- `z.string()` -/
def string? : Json → Option (List Nat)
  | .str text => some text
  | _ => none

/-- `z.string().min(1)` -/
def nonempty? (value : Json) : Option (List Nat) := (string? value).filter fun text => !text.isEmpty

/-- `z.boolean()` -/
def bool? : Json → Option Bool
  | .bool value => some value
  | _ => none

/-- `z.number().int().min(0)` -/
def index? : Json → Option Nat
  | .num n => n.safeNat?
  | _ => none

/-- A field the schema wants. -/
def want {A : Type} (json : Json) (key : String) (check : Json → Option A) : Option A := json.get? key >>= check

/-- A field that may be missing. -/
def allow {A : Type} (json : Json) (key : String) (check : Json → Option A) : Option (Option A) :=
  match json.get? key with
  | none => some none
  | some value => (check value).map some

def FrameAuth.ofJson (json : Json) : Option FrameAuth := do
  let serviceToken ← want json "serviceToken" nonempty?
  let relayPrincipal ← want json "relayPrincipal" nonempty?
  if serviceToken.length ≤ SERVICE_TOKEN_MAX_LENGTH ∧ relayPrincipal.length ≤ 64 then
    some ⟨serviceToken, relayPrincipal⟩
  else none

def FrameError.ofJson (json : Json) : Option FrameError := do
  let code ← want json "code" string?
  let message ← want json "message" string?
  some ⟨code, message⟩

/-- `TunnelMessageSchema`, a union by its `type`. -/
def TunnelMessage.ofJson (json : Json) : Option TunnelMessage := do
  let kind ← want json "type" string?
  if kind = units "hello" then
    some (.hello (← want json "bearer" nonempty?) (← want json "nodeName" nonempty?))
  else if kind = units "hello-ack" then some (.helloAck (← want json "serverTime" string?))
  else if kind = units "req" then
    some (.req (← want json "id" nonempty?) (← want json "method" nonempty?) (json.get? "params")
      (← allow json "auth" FrameAuth.ofJson))
  else if kind = units "res" then
    some (.res (← want json "id" nonempty?) (json.get? "result") (← allow json "error" FrameError.ofJson))
  else if kind = units "ping" then some (.ping (← want json "nonce" nonempty?))
  else if kind = units "pong" then some (.pong (← want json "nonce" nonempty?))
  else if kind = units "stream-event" then
    some (.streamEvent (← want json "id" nonempty?) (← want json "index" index?) (json.get? "data"))
  else if kind = units "stream-done" then
    some (.streamDone (← want json "id" nonempty?) (← want json "ok" bool?) (← allow json "error" FrameError.ofJson))
  else if kind = units "stream-cancel" then some (.streamCancel (← want json "id" nonempty?))
  else none

def frameBytes (raw : List Nat) : Nat := byteLength raw

def parseTunnelMessage (raw : List Nat) : Option TunnelMessage :=
  if TUNNEL_MAX_FRAME_BYTES < frameBytes raw then none else parse raw >>= TunnelMessage.ofJson

def encodeTunnelMessage (message : TunnelMessage) : List Nat := stringify message.toJson

/-- The size the node's pump measures. -/
def eventBytes (value : Option Json) : Nat :=
  match value with
  | none => 0
  | some json => frameBytes (stringify json)

/-- `pumpEvents` hands the event on. -/
def Ships (limits : StreamLimits) (value : Option Json) : Prop := eventBytes value ≤ limits.maxFrameBytes

/-- Central takes the frame for the event it is, and `push` finds it within the stream's cap. -/
def Accepts (limits : StreamLimits) (id : List Nat) (index : Nat) (value : Option Json) (raw : List Nat) : Prop :=
  parseTunnelMessage raw = some (.streamEvent id index value) ∧ frameBytes raw ≤ limits.maxFrameBytes

/-- The bytes of the frame around the event. -/
def envelopeBytes (id : List Nat) (index : Nat) (value : Option Json) : Nat :=
  38 + byteLength (quote id) + (natDigits index).length + if value.isSome then 8 else 0

section

variable {limits : StreamLimits} {id : List Nat} {index : Nat} {value : Option Json}

attribute [simp] units_inj

theorem get?_streamEvent (id : List Nat) (index : Nat) (value : Option Json) :
    (TunnelMessage.streamEvent id index value).toJson.get? "type" = some (.str (units "stream-event")) ∧
      (TunnelMessage.streamEvent id index value).toJson.get? "id" = some (.str id) ∧
      (TunnelMessage.streamEvent id index value).toJson.get? "index" = some (.num (Numeral.ofNat index)) ∧
      (TunnelMessage.streamEvent id index value).toJson.get? "data" = value := by
  cases value <;> simp [TunnelMessage.toJson, typed, field, optionalField, Json.get?]

theorem ofJson_streamEvent (hid : id ≠ []) :
    TunnelMessage.ofJson (TunnelMessage.streamEvent id index value).toJson =
      if index ≤ MAX_SAFE_INTEGER then some (.streamEvent id index value) else none := by
  obtain ⟨htype, hidField, hindex, hdata⟩ := get?_streamEvent id index value
  have hnonempty : nonempty? (.str id) = some id := by simp [nonempty?, string?, hid]
  by_cases hindexSafe : index ≤ MAX_SAFE_INTEGER
  · simp [TunnelMessage.ofJson, want, htype, hidField, hindex, hdata, string?, hnonempty, index?, safeNat?_ofNat,
      hindexSafe]
  · simp [TunnelMessage.ofJson, want, htype, hidField, hindex, hdata, string?, hnonempty, index?, safeNat?_ofNat,
      hindexSafe]

theorem frameBytes_streamEvent (id : List Nat) (index : Nat) (value : Option Json) :
    frameBytes (encodeTunnelMessage (.streamEvent id index value)) = envelopeBytes id index value + eventBytes value := by
  have hnumber : byteLength (stringify (.num (Numeral.ofNat index))) = (natDigits index).length := by
    have htext : stringify (.num (Numeral.ofNat index)) = digitText (natDigits index) := by
      simp [stringify, Numeral.text, Numeral.ofNat, fractionText, exponentText]
    rw [htext, byteLength_digitText]
  have htype : byteLength (quote (units "type")) = 6 := by decide
  have hkind : byteLength (stringify (.str (units "stream-event"))) = 14 := by decide
  have hid : byteLength (quote (units "id")) = 4 := by decide
  have hindex : byteLength (quote (units "index")) = 7 := by decide
  have hdata : byteLength (quote (units "data")) = 6 := by decide
  have hend : byteLength (stringifyFields []) = 1 := by decide
  unfold frameBytes encodeTunnelMessage envelopeBytes eventBytes
  cases value with
  | none =>
    simp only [TunnelMessage.toJson, typed, field, optionalField, cons_append, nil_append, append_nil]
    rw [stringify, byteLength_field (by decide), stringifyFields, byteLength_field (by decide), stringifyFields,
      byteLength_field (by decide), hend, hnumber, htype, hkind, hid, hindex, stringify_str id]
    simp
    omega
  | some json =>
    simp only [TunnelMessage.toJson, typed, field, optionalField, cons_append, nil_append]
    rw [stringify, byteLength_field (by decide), stringifyFields, byteLength_field (by decide), stringifyFields,
      byteLength_field (by decide), stringifyFields, byteLength_field (by decide), hend, hnumber, htype, hkind, hid,
      hindex, hdata, stringify_str id]
    simp only [isSome_some, if_true, frameBytes]
    omega

theorem accepts_iff (hid : id ≠ []) (hlimits : limits.maxFrameBytes ≤ TUNNEL_MAX_FRAME_BYTES) :
    Accepts limits id index value (encodeTunnelMessage (.streamEvent id index value)) ↔
      envelopeBytes id index value + eventBytes value ≤ limits.maxFrameBytes ∧ index ≤ MAX_SAFE_INTEGER := by
  have hbytes := frameBytes_streamEvent id index value
  have hparse : parse (encodeTunnelMessage (.streamEvent id index value)) =
      some (TunnelMessage.streamEvent id index value).toJson := parse_stringify _
  unfold Accepts parseTunnelMessage
  rw [hparse, hbytes, bind_eq_bind, bind_some, ofJson_streamEvent hid]
  constructor
  · rintro ⟨hmessage, hfits⟩
    refine ⟨hfits, ?_⟩
    rw [if_neg (by omega)] at hmessage
    split at hmessage
    · assumption
    · cases hmessage
  rintro ⟨hfits, hsafe⟩
  refine ⟨?_, hfits⟩
  rw [if_neg (by omega), if_pos hsafe]

/-- Central takes the frame of an event the node ships if and only if the frame, and not only
the event, fits the cap. -/
theorem streamEvent_accepted_iff (hid : id ≠ []) (hlimits : limits.maxFrameBytes ≤ TUNNEL_MAX_FRAME_BYTES) :
    (Ships limits value → Accepts limits id index value (encodeTunnelMessage (.streamEvent id index value))) ↔
      (Ships limits value →
        envelopeBytes id index value + eventBytes value ≤ limits.maxFrameBytes ∧ index ≤ MAX_SAFE_INTEGER) :=
  imp_congr_right fun _ => accepts_iff hid hlimits

end

def SUBSCRIPTION_STREAM_LIMITS : StreamLimits := ⟨TUNNEL_MAX_FRAME_BYTES, 4 * TUNNEL_MAX_FRAME_BYTES⟩

theorem streamEvent_accepted_null :
    Accepts SUBSCRIPTION_STREAM_LIMITS (units "a") 0 (some .null)
      (encodeTunnelMessage (.streamEvent (units "a") 0 (some .null))) := by
  have hships : Ships SUBSCRIPTION_STREAM_LIMITS (some .null) := by
    unfold Ships
    decide
  exact (streamEvent_accepted_iff (by decide) (by decide)).mpr (fun _ => ⟨by decide, by decide⟩) hships

def letters (n : Nat) : Json := .str (List.replicate n 0x61)

theorem eventBytes_letters (n : Nat) : eventBytes (some (letters n)) = n + 2 := by
  have hletter : quoteUnit 0x61 = [0x61] := by decide
  have hascii : ∀ u ∈ 0x22 :: (List.replicate n 0x61 ++ [0x22]), u < 0x80 := by
    intro u hu
    simp only [mem_cons, mem_append, mem_replicate, not_mem_nil, or_false] at hu
    omega
  unfold eventBytes frameBytes letters
  dsimp only
  rw [stringify_str, quote_replicate hletter (by decide), byteLength_ascii hascii]
  simp

/-- The node ships a string of 16 MiB within the default cap; central takes its frame for
malformed and closes the connection. -/
theorem streamEvent_malformed :
    Ships SUBSCRIPTION_STREAM_LIMITS (some (letters (TUNNEL_MAX_FRAME_BYTES - 2))) ∧
      parseTunnelMessage (encodeTunnelMessage
        (.streamEvent (units "a") 0 (some (letters (TUNNEL_MAX_FRAME_BYTES - 2))))) = none := by
  have hcap : TUNNEL_MAX_FRAME_BYTES - 2 + 2 = TUNNEL_MAX_FRAME_BYTES := by decide
  generalize hn : TUNNEL_MAX_FRAME_BYTES - 2 = n at hcap
  constructor
  · unfold Ships
    rw [eventBytes_letters, hcap]
    exact le_rfl
  unfold parseTunnelMessage
  rw [frameBytes_streamEvent, eventBytes_letters, hcap, if_pos]
  unfold envelopeBytes
  omega

end llamactl.tunnel
