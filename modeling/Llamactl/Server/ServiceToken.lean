import Llamactl.Inference.Contracts
import Llamactl.Js.Number

open js
open llamactl.inference (Claims)

namespace llamactl.server

/-! Single-use service tokens of the reverse tunnel. Texts are lists of UTF-16 code units and clock
readings are milliseconds. -/

def SERVICE_TOKEN_TTL_MS : Nat := 60000

def SERVICE_TOKEN_MAX_LENGTH : Nat := 1024

def SERVICE_TOKEN_MAX_AHEAD_MS : Nat := 2 * SERVICE_TOKEN_TTL_MS

def SERVICE_TOKEN_NONCE_RETENTION_MS : Nat := SERVICE_TOKEN_MAX_AHEAD_MS + 10 * 60000

def SERVICE_TOKEN_VERSION : List Nat := codeUnits "v2"

def SERVICE_TOKEN_DOMAIN : List Nat := codeUnits "llamactl-worker-rpc-service-token"

/-- What the runtime's `Buffer` and `crypto` compute. -/
structure Platform where
  /-- `Buffer.from(text, "base64url")` -/
  base64url : List Nat → List UInt8
  /-- `Buffer.from(text, "hex")` -/
  hex : List Nat → List UInt8
  /-- `buffer.toString("utf8")` -/
  utf8 : List UInt8 → List Nat
  /-- `createHash("sha256").update(text).digest("base64url")` -/
  sha256 : List Nat → List Nat
  /-- `createHmac("sha256", key).update(text).digest()` -/
  hmac : List UInt8 → List Nat → List UInt8

/-- What a token is bound to; `node` is the verifier's own. -/
structure ServiceTokenCall where
  method : List Nat
  /-- none where it is undefined -/
  input : Option Json
  relayPrincipal : List Nat

structure ServiceCredentialBinding where
  claims : Claims
  tokenHash : List Nat
  tunnelKey : Option (List Nat)

def claimsOf (binding : ServiceCredentialBinding) : Claims := binding.claims

/-- `a ?? b` on a property that may be absent or null. -/
def nullish (a b : Option Json) : Option Json :=
  match a with
  | none | some .null => b
  | some value => some value

def stringOf : Option Json → Option (List Nat)
  | some (.str text) => some text
  | _ => none

def serviceTokenSubjectOf (method : List Nat) (input : Option Json) : Option (List Nat) :=
  match input with
  | some (.obj fields) =>
    let record := Json.obj fields
    if method = codeUnits "inferenceRpc.submit" then
      -- a property of anything but a record is undefined
      stringOf ((record.get? "envelope").bind (Json.get? "attemptId"))
    else if method = codeUnits "inferenceRpc.cancel" then
      stringOf (nullish (record.get? "attemptId") (record.get? "cancelId"))
    else if method = codeUnits "inferenceRpc.stream" ∨ method = codeUnits "inferenceRpc.status" then
      stringOf (record.get? "attemptId")
    else none
  | _ => none

structure ParsedServiceToken where
  node : List Nat
  expiresAt : Nat
  nonce : List Nat
  subject : List Nat
  mac : List UInt8
  deriving DecidableEq

def isDigit (u : Nat) : Bool := 0x30 ≤ u && u ≤ 0x39

/-- A unit of `[A-Za-z0-9_-]`. -/
def isNonceUnit (u : Nat) : Bool :=
  isDigit u || (0x41 ≤ u && u ≤ 0x5A) || (0x61 ≤ u && u ≤ 0x7A) || u = 0x5F || u = 0x2D

def matchesExpiry (text : List Nat) : Bool := 1 ≤ text.length && text.length ≤ 15 && text.all isDigit

def matchesNonce (text : List Nat) : Bool := 16 ≤ text.length && text.length ≤ 64 && text.all isNonceUnit

/-- `Number` of a text of at most fifteen digits, which a double holds exactly. -/
def decimal (text : List Nat) : Nat := text.foldl (fun n u => 10 * n + (u - 0x30)) 0

variable (platform : Platform)

def parseServiceToken (token : List Nat) : Option ParsedServiceToken :=
  if SERVICE_TOKEN_MAX_LENGTH < token.length then none
  else
    match token.splitOn 0x2E with
    | [version, node64, expiry, nonce, subject64, mac64] =>
      if version ≠ SERVICE_TOKEN_VERSION then none
      else if !matchesExpiry expiry then none
      else if !matchesNonce nonce then none
      else
        let node := platform.utf8 (platform.base64url node64)
        let subject := platform.utf8 (platform.base64url subject64)
        let mac := platform.base64url mac64
        if node.isEmpty || subject.isEmpty || mac.length ≠ 32 then none
        else some { node, expiresAt := decimal expiry, nonce, subject, mac }
    | _ => none

inductive ServiceTokenRefusal where
  | malformed
  | node
  | expired
  | skew
  | subject
  | replay
  | mac
  deriving DecidableEq

/-- Why a parsed token cannot verify here and now, before its MAC is checked; `wall` is `now()`. -/
def refusalFor (parsed : ParsedServiceToken) (node : List Nat) (call : ServiceTokenCall) (wall : ℚ) :
    Option ServiceTokenRefusal :=
  if parsed.node ≠ node then some .node
  else if wall > parsed.expiresAt then some .expired
  else if parsed.expiresAt - wall > SERVICE_TOKEN_MAX_AHEAD_MS then some .skew
  else
    match serviceTokenSubjectOf call.method call.input with
    | none => none
    | some named => if named = parsed.subject then none else some .subject

def serviceTokenMac (key : List UInt8) (node : List Nat) (call : ServiceTokenCall) (subject : List Nat)
    (expiresAt : Nat) (nonce : List Nat) : List UInt8 :=
  let digest := platform.sha256 ((call.input.map stringify).getD [])
  let bound := Json.arr [.str SERVICE_TOKEN_DOMAIN, .str SERVICE_TOKEN_VERSION, .str node, .str call.method,
    .str subject, .str digest, .str call.relayPrincipal, .num (Numeral.ofNat expiresAt), .str nonce]
  platform.hmac key (stringify bound)

def mintedBy (parsed : ParsedServiceToken) (node : List Nat) (call : ServiceTokenCall)
    (bindings : List ServiceCredentialBinding) : Option ServiceCredentialBinding :=
  bindings.find? fun binding =>
    let key := platform.hex (binding.tunnelKey.getD [])
    key.length = 32 &&
      serviceTokenMac platform key node call parsed.subject parsed.expiresAt parsed.nonce = parsed.mac

structure Held where
  nonce : List Nat
  until_ : ℚ

/-- The state of one verifier. `held` is in verification order and its first `head` entries are spent. -/
structure ServiceTokenVerifier where
  seen : List (List Nat) := []
  held : List Held := []
  head : Nat := 0

/-- The loop of `sweep` over the entries from `head` on. -/
def sweepFrom (at_ : ℚ) : List Held → List (List Nat) → Nat → List (List Nat) × Nat
  | [], seen, head => (seen, head)
  | next :: rest, seen, head =>
    if next.until_ ≤ at_ then sweepFrom at_ rest (seen.filter (· ≠ next.nonce)) (head + 1)
    else (seen, head)

def ServiceTokenVerifier.sweep (v : ServiceTokenVerifier) (at_ : ℚ) : ServiceTokenVerifier :=
  let (seen, head) := sweepFrom at_ (v.held.drop v.head) v.seen v.head
  if head > 1024 ∧ head * 2 > v.held.length then { seen, held := v.held.drop head, head := 0 }
  else { seen, held := v.held, head }

/-- One call of `claimsFor`, with the readings `wall` of `now()` and `mono` of `monotonicNow()`. -/
structure Presented where
  /-- none where it is null or undefined -/
  token : Option (List Nat)
  call : ServiceTokenCall
  bindings : List ServiceCredentialBinding
  wall : ℚ
  mono : ℚ

/-- What a call comes to: the claims, or the refusal that is reported, none for an absent token. -/
inductive Verdict where
  | accepted (claims : Claims)
  | refused (reason : Option ServiceTokenRefusal)

def Verdict.isAccepted : Verdict → Bool
  | .accepted _ => true
  | .refused _ => false

variable (node : List Nat)

/-- The checks made before the sweep: the token to verify, or the refusal. -/
def admitted (c : Presented) : Except (Option ServiceTokenRefusal) ParsedServiceToken :=
  match c.token with
  | none | some [] => .error none
  | some token =>
    match parseServiceToken platform token with
    | none => .error (some .malformed)
    | some parsed =>
      match refusalFor parsed node c.call c.wall with
      | some early => .error (some early)
      | none => .ok parsed

def ServiceTokenVerifier.claimsFor (v : ServiceTokenVerifier) (c : Presented) :
    Verdict × ServiceTokenVerifier :=
  match admitted platform node c with
  | .error reason => (.refused reason, v)
  | .ok parsed =>
    let v := v.sweep c.mono
    if parsed.nonce ∈ v.seen then (.refused (some .replay), v)
    else
      match mintedBy platform parsed node c.call c.bindings with
      | none => (.refused (some .mac), v)
      | some binding =>
        (.accepted (claimsOf binding),
          { v with
            seen := v.seen ++ [parsed.nonce]
            held := v.held ++ [⟨parsed.nonce, c.mono + SERVICE_TOKEN_NONCE_RETENTION_MS⟩] })

def ServiceTokenVerifier.heldNonces (v : ServiceTokenVerifier) : Nat := v.seen.length

/-- The verdicts of a sequence of calls, in order. -/
def ServiceTokenVerifier.verdicts : ServiceTokenVerifier → List Presented → List Verdict
  | _, [] => []
  | v, c :: rest =>
    (v.claimsFor platform node c).1 :: (v.claimsFor platform node c).2.verdicts rest

def ServiceTokenVerifier.after (v : ServiceTokenVerifier) (calls : List Presented) : ServiceTokenVerifier :=
  calls.foldl (fun v c => (v.claimsFor platform node c).2) v

/-- The tokens that a sequence of calls accepts, each with the call that presented it. -/
def ServiceTokenVerifier.spent :
    ServiceTokenVerifier → List Presented → List (Presented × ParsedServiceToken)
  | _, [] => []
  | v, c :: rest =>
    let (verdict, next) := v.claimsFor platform node c
    match admitted platform node c, verdict with
    | .ok parsed, .accepted _ => (c, parsed) :: next.spent rest
    | _, _ => next.spent rest

end llamactl.server
