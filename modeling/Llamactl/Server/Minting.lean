import Llamactl.Js.Base64
import Llamactl.Js.JsonRoundTrip
import Llamactl.Js.Utf8
import Llamactl.Server.SingleUse

open js Option

namespace llamactl.server

/-! Minting a service token, and what its verifier reads of it. Both sides hash with the same digests,
which stay parameters; the codecs between them are `Buffer`'s. -/

/-- The runtime of both sides. -/
def nodePlatform (hex : List Nat → List UInt8) (sha256 : List Nat → List Nat)
    (hmac : List UInt8 → List Nat → List UInt8) : Platform where
  base64url := decodeBase64url
  utf8 := decodeUtf8
  hex
  sha256
  hmac

/-- A call to mint a token: the target and the call, the clock and the bytes that are drawn. -/
structure Minting where
  node : List Nat
  call : ServiceTokenCall
  /-- `opts.now ?? Date.now()` -/
  now : Nat
  ttlMs : Option Nat := none
  /-- `randomBytes(12)`, for a call that names no attempt -/
  requestBytes : Vector UInt8 12
  /-- `randomBytes(18)` -/
  nonceBytes : Vector UInt8 18

def Minting.subject (m : Minting) : List Nat :=
  (serviceTokenSubjectOf m.call.method m.call.input).getD
    (codeUnits "req-" ++ encodeBase64url m.requestBytes.toList)

def Minting.ttl (m : Minting) : Nat := m.ttlMs.getD SERVICE_TOKEN_TTL_MS

def Minting.expiresAt (m : Minting) : Nat := m.now + m.ttl

def Minting.nonce (m : Minting) : List Nat := encodeBase64url m.nonceBytes.toList

def Minting.mac (platform : Platform) (key : List UInt8) (m : Minting) : List UInt8 :=
  serviceTokenMac platform key m.node m.call m.subject m.expiresAt m.nonce

/-- An expiry of more than fifteen digits is refused however it is written, so a rounded one is not told apart. -/
def mintServiceTokenWithKey (platform : Platform) (key : List UInt8) (m : Minting) : List Nat :=
  [0x2E].intercalate
    [SERVICE_TOKEN_VERSION,
     encodeBase64url (encodeUtf8 m.node),
     digitText (natDigits m.expiresAt),
     m.nonce,
     encodeBase64url (encodeUtf8 m.subject),
     encodeBase64url (m.mac platform key)]

/-- The key that a binding keeps for its worker; nothing where it has none. -/
def tunnelKeyOf (platform : Platform) (binding : ServiceCredentialBinding) : List UInt8 :=
  platform.hex (binding.tunnelKey.getD [])

section

variable (platform : Platform)

/-- The JSON of a call's input; the relay drops an undefined one. -/
def inputText (call : ServiceTokenCall) : List Nat := (call.input.map stringify).getD []

/-- The text that a MAC covers. -/
def boundText (node : List Nat) (call : ServiceTokenCall) (subject : List Nat) (expiresAt : Nat)
    (nonce : List Nat) : List Nat :=
  stringify (Json.arr [.str SERVICE_TOKEN_DOMAIN, .str SERVICE_TOKEN_VERSION, .str node, .str call.method,
    .str subject, .str (platform.sha256 (inputText call)), .str call.relayPrincipal,
    .num (Numeral.ofNat expiresAt), .str nonce])

/-- The text that a minted token's MAC covers. -/
def Minting.text (m : Minting) : List Nat := boundText platform m.node m.call m.subject m.expiresAt m.nonce

def DigestsApart (a b : List Nat) : Prop := platform.sha256 a = platform.sha256 b → a = b

def MacsApart (key key' : List UInt8) (text text' : List Nat) : Prop :=
  platform.hmac key text = platform.hmac key' text' → key = key' ∧ text = text'

theorem inputText_inj {a b : ServiceTokenCall} (heq : inputText a = inputText b) : a.input = b.input := by
  unfold inputText at heq
  cases ha : a.input with
  | none =>
    cases hb : b.input with
    | none => rfl
    | some right =>
      rw [ha, hb] at heq
      exact absurd heq.symm (stringify_ne_nil right)
  | some left =>
    cases hb : b.input with
    | none =>
      rw [ha, hb] at heq
      exact absurd heq (stringify_ne_nil left)
    | some right =>
      rw [ha, hb] at heq
      rw [stringify_inj heq]

theorem boundText_inj {node node' : List Nat} {call call' : ServiceTokenCall} {subject subject' : List Nat}
    {expiresAt expiresAt' : Nat} {nonce nonce' : List Nat}
    (hapart : DigestsApart platform (inputText call) (inputText call'))
    (heq : boundText platform node call subject expiresAt nonce =
      boundText platform node' call' subject' expiresAt' nonce') :
    node = node' ∧ call = call' := by
  have hvalue := stringify_inj heq
  simp only [Json.arr.injEq, List.cons.injEq, Json.str.injEq] at hvalue
  obtain ⟨-, -, hnode, hmethod, -, hdigest, hrelay, -⟩ := hvalue
  have hinput := inputText_inj (hapart hdigest)
  cases call
  cases call'
  simp only at hmethod hrelay hinput
  rw [hnode, hmethod, hrelay, hinput]
  exact ⟨rfl, rfl⟩

end

section

theorem decimal_digitText (digits : List (Fin 10)) : decimal (digitText digits) = digitsValue digits := by
  have hfold : ∀ n, (digitText digits).foldl (fun n u => 10 * n + (u - 0x30)) n =
      n * 10 ^ digits.length + digitsValue digits := by
    induction digits with
    | nil => simp [digitText, digitsValue]
    | cons d digits ih =>
      intro n
      have hstep := ih (10 * n + (48 + d.val - 0x30))
      have hdigit : 48 + d.val - 0x30 = d.val := by omega
      rw [hdigit] at hstep
      rw [digitsValue_cons, List.length_cons, Nat.pow_succ]
      simp only [digitText, List.map_cons, List.foldl_cons, hdigit]
      rw [digitText] at hstep
      rw [hstep]
      ring
  have hzero := hfold 0
  rw [Nat.zero_mul, Nat.zero_add] at hzero
  exact hzero

theorem decimal_natDigits (n : Nat) : decimal (digitText (natDigits n)) = n := by
  rw [decimal_digitText, digitsValue_natDigits]

theorem isDigit_digitText (digits : List (Fin 10)) : ∀ u ∈ digitText digits, isDigit u = true := by
  intro u hmem
  obtain ⟨d, -, rfl⟩ := List.mem_map.mp hmem
  have hlt := d.isLt
  simp only [isDigit, Bool.and_eq_true, decide_eq_true_eq]
  omega

theorem matchesExpiry_natDigits {n : Nat} : matchesExpiry (digitText (natDigits n)) = true ↔ n < 10 ^ 15 := by
  have hlength : (digitText (natDigits n)).length = (natDigits n).length := List.length_map _
  have hpos := List.length_pos_of_ne_nil (natDigits_ok n).1
  have hall := List.all_eq_true.mpr (isDigit_digitText (natDigits n))
  unfold matchesExpiry
  rw [hall, hlength, Bool.and_true, Bool.and_eq_true, decide_eq_true_eq, decide_eq_true_eq,
    length_natDigits_le (by omega)]
  constructor
  · intro hboth
    exact hboth.2
  · intro hlt
    exact ⟨hpos, hlt⟩

theorem isNonceUnit_of_isBase64url {u : Nat} (hunit : IsBase64url u) : isNonceUnit u = true := by
  unfold IsBase64url at hunit
  simp only [isNonceUnit, isDigit, Bool.or_eq_true, Bool.and_eq_true, decide_eq_true_eq]
  omega

theorem length_nonce (m : Minting) : m.nonce.length = 24 := by
  unfold Minting.nonce
  rw [length_encodeBase64url, Vector.length_toList]

theorem matchesNonce_nonce (m : Minting) : matchesNonce m.nonce = true := by
  have hall : m.nonce.all isNonceUnit = true := by
    apply List.all_eq_true.mpr
    intro u hmem
    exact isNonceUnit_of_isBase64url (isBase64url_encode _ u hmem)
  unfold matchesNonce
  rw [hall, length_nonce]
  rfl

theorem dot_not_mem_encode (bytes : List UInt8) : 0x2E ∉ encodeBase64url bytes := by
  intro hmem
  have hunit := isBase64url_encode bytes _ hmem
  unfold IsBase64url at hunit
  omega

theorem dot_not_mem_digitText (digits : List (Fin 10)) : 0x2E ∉ digitText digits := by
  intro hmem
  have hdigit := isDigit_digitText digits _ hmem
  simp [isDigit] at hdigit

end

section

variable (hex : List Nat → List UInt8) (sha256 : List Nat → List Nat) (hmac : List UInt8 → List Nat → List UInt8)

/-- The length of the token: its version, nonce, MAC and five dots take 74 units. -/
def Minting.tokenLength (m : Minting) : Nat :=
  (encodeBase64url (encodeUtf8 m.node)).length + (natDigits m.expiresAt).length +
    (encodeBase64url (encodeUtf8 m.subject)).length + 74

/-- A token is read back where it is not too long and no part of it comes out empty. -/
structure Minting.Legible (m : Minting) : Prop where
  length : m.tokenLength ≤ SERVICE_TOKEN_MAX_LENGTH
  expiry : m.expiresAt < 10 ^ 15
  node : m.node ≠ []
  subject : m.subject ≠ []

def Minting.readBack (mac : List UInt8) (m : Minting) : ParsedServiceToken where
  node := toWellFormed m.node
  expiresAt := m.expiresAt
  nonce := m.nonce
  subject := toWellFormed m.subject
  mac

variable {hex sha256 hmac}

theorem splitOn_mint (platform : Platform) (key : List UInt8) (m : Minting) :
    (mintServiceTokenWithKey platform key m).splitOn 0x2E =
      [SERVICE_TOKEN_VERSION, encodeBase64url (encodeUtf8 m.node), digitText (natDigits m.expiresAt), m.nonce,
        encodeBase64url (encodeUtf8 m.subject), encodeBase64url (m.mac platform key)] := by
  unfold mintServiceTokenWithKey
  apply List.splitOn_intercalate
  · intro part hpart
    simp only [List.mem_cons, List.not_mem_nil, or_false] at hpart
    obtain rfl | rfl | rfl | rfl | rfl | rfl := hpart
    · decide
    · exact dot_not_mem_encode _
    · exact dot_not_mem_digitText _
    · exact dot_not_mem_encode _
    · exact dot_not_mem_encode _
    · exact dot_not_mem_encode _
  · exact List.cons_ne_nil _ _

theorem length_mint {platform : Platform} {key : List UInt8} {m : Minting}
    (hlength : (m.mac platform key).length = 32) :
    (mintServiceTokenWithKey platform key m).length = m.tokenLength := by
  have hversion : SERVICE_TOKEN_VERSION.length = 2 := rfl
  have hencoded : (encodeBase64url (m.mac platform key)).length = 43 := by
    rw [length_encodeBase64url, hlength]
  have hdigits : (digitText (natDigits m.expiresAt)).length = (natDigits m.expiresAt).length := List.length_map _
  unfold mintServiceTokenWithKey Minting.tokenLength
  simp only [List.intercalate, List.intersperse, List.flatten_cons, List.flatten_nil, List.length_append,
    List.length_cons, List.length_nil, hversion, hencoded, hdigits, length_nonce]
  omega

theorem parse_mint {key : List UInt8} {m : Minting}
    (hlength : (m.mac (nodePlatform hex sha256 hmac) key).length = 32) (hlegible : m.Legible) :
    parseServiceToken (nodePlatform hex sha256 hmac) (mintServiceTokenWithKey (nodePlatform hex sha256 hmac) key m) =
      some (m.readBack (m.mac (nodePlatform hex sha256 hmac) key)) := by
  have hfits := hlegible.length
  have hnode : toWellFormed m.node ≠ [] := fun hnil => hlegible.node (toWellFormed_eq_nil.mp hnil)
  have hsubject : toWellFormed m.subject ≠ [] := fun hnil => hlegible.subject (toWellFormed_eq_nil.mp hnil)
  unfold parseServiceToken
  rw [length_mint hlength, if_neg (by omega), splitOn_mint]
  simp only [ne_eq, not_true_eq_false, if_false, matchesExpiry_natDigits.mpr hlegible.expiry, matchesNonce_nonce,
    Bool.not_true, Bool.false_eq_true]
  simp only [nodePlatform, decode_encodeBase64url, decode_encodeUtf8, decimal_natDigits]
  rw [if_neg]
  · rfl
  · simp only [List.isEmpty_iff, Bool.or_eq_true, decide_eq_true_eq, not_or]
    exact ⟨⟨hnode, hsubject⟩, fun hne => hne hlength⟩

theorem legible_of_parse {key : List UInt8} {m : Minting} {parsed : ParsedServiceToken}
    (hlength : (m.mac (nodePlatform hex sha256 hmac) key).length = 32)
    (hparse : parseServiceToken (nodePlatform hex sha256 hmac)
      (mintServiceTokenWithKey (nodePlatform hex sha256 hmac) key m) = some parsed) : m.Legible := by
  unfold parseServiceToken at hparse
  rw [length_mint hlength, splitOn_mint] at hparse
  split at hparse
  · exact absurd hparse (by simp)
  rename_i hfits
  simp only [ne_eq, not_true_eq_false, if_false] at hparse
  split at hparse
  · exact absurd hparse (by simp)
  rename_i hexpiry
  rw [Bool.not_eq_true', Bool.not_eq_false] at hexpiry
  split at hparse
  · exact absurd hparse (by simp)
  split at hparse
  · exact absurd hparse (by simp)
  rename_i hempty
  simp only [nodePlatform, decode_encodeBase64url, decode_encodeUtf8, List.isEmpty_iff, Bool.or_eq_true,
    not_or] at hempty
  obtain ⟨⟨hnode, hsubject⟩, -⟩ := hempty
  constructor
  · omega
  · exact matchesExpiry_natDigits.mp hexpiry
  · exact fun hnil => hnode (toWellFormed_eq_nil.mpr hnil)
  · exact fun hnil => hsubject (toWellFormed_eq_nil.mpr hnil)

theorem mint_ne_nil (platform : Platform) (key : List UInt8) (m : Minting) : mintServiceTokenWithKey platform key m ≠ [] := by
  intro hnil
  have hsplit := splitOn_mint platform key m
  rw [hnil] at hsplit
  cases hsplit

end

section

variable {hex : List Nat → List UInt8} {sha256 : List Nat → List Nat} {hmac : List UInt8 → List Nat → List UInt8}

theorem accepted_iff {platform : Platform} {node : List Nat} {v : ServiceTokenVerifier} {c : Presented}
    {claims : inference.Claims} :
    (v.claimsFor platform node c).1 = .accepted claims ↔
      ∃ parsed binding, admitted platform node c = .ok parsed ∧ parsed.nonce ∉ (v.sweep c.mono).seen ∧
        mintedBy platform parsed node c.call c.bindings = some binding ∧ claims = claimsOf binding := by
  constructor
  · intro haccepted
    obtain ⟨reason, -, hcall⟩ | ⟨parsed, hadmitted, ⟨reason, -, hcall⟩ | ⟨binding, hnew, hminted, hcall⟩⟩ :=
      claimsFor_cases platform node v c
    · rw [hcall] at haccepted
      cases haccepted
    · rw [hcall] at haccepted
      cases haccepted
    rw [hcall] at haccepted
    cases haccepted
    exact ⟨parsed, binding, hadmitted, hnew, hminted, rfl⟩
  · rintro ⟨parsed, binding, hadmitted, hnew, hminted, rfl⟩
    simp only [ServiceTokenVerifier.claimsFor, hadmitted, hnew, hminted, if_false]

theorem refusalFor_eq_none {parsed : ParsedServiceToken} {node : List Nat} {call : ServiceTokenCall} {wall : ℚ} :
    refusalFor parsed node call wall = none ↔
      parsed.node = node ∧ wall ≤ parsed.expiresAt ∧ parsed.expiresAt - wall ≤ SERVICE_TOKEN_MAX_AHEAD_MS ∧
        ∀ named ∈ serviceTokenSubjectOf call.method call.input, named = parsed.subject := by
  unfold refusalFor
  split
  · rename_i hnode
    simp [hnode]
  rename_i hnode
  split
  · rename_i hexpired
    simp [not_le.mpr hexpired]
  rename_i hexpired
  split
  · rename_i hskew
    simp [not_le.mpr hskew]
  rename_i hskew
  rw [ne_eq, not_not] at hnode
  have hwithin := And.intro (not_lt.mp hexpired) (not_lt.mp hskew)
  cases serviceTokenSubjectOf call.method call.input with
  | none => simp [hnode, hwithin]
  | some named => simp [hnode, hwithin]

theorem admitted_mint {key : List UInt8} {m : Minting} {node : List Nat} {c : Presented} {parsed : ParsedServiceToken}
    (hlength : (m.mac (nodePlatform hex sha256 hmac) key).length = 32)
    (htoken : c.token = some (mintServiceTokenWithKey (nodePlatform hex sha256 hmac) key m)) :
    admitted (nodePlatform hex sha256 hmac) node c = .ok parsed ↔
      m.Legible ∧ parsed = m.readBack (m.mac (nodePlatform hex sha256 hmac) key) ∧
        refusalFor parsed node c.call c.wall = none := by
  have hne := mint_ne_nil (nodePlatform hex sha256 hmac) key m
  cases htext : mintServiceTokenWithKey (nodePlatform hex sha256 hmac) key m with
  | nil => exact absurd htext hne
  | cons u rest =>
    rw [htext] at htoken
    unfold admitted
    rw [htoken]
    dsimp only
    rw [← htext]
    constructor
    · intro hadmitted
      split at hadmitted
      · cases hadmitted
      rename_i found hparse
      have hlegible := legible_of_parse hlength hparse
      rw [parse_mint hlength hlegible] at hparse
      split at hadmitted
      · cases hadmitted
      rename_i hrefusal
      cases hadmitted
      exact ⟨hlegible, (Option.some.inj hparse).symm, hrefusal⟩
    rintro ⟨hlegible, rfl, hrefusal⟩
    rw [parse_mint hlength hlegible]
    dsimp only
    rw [hrefusal]

theorem unnamed_wellFormed {m : Minting} (hnone : serviceTokenSubjectOf m.call.method m.call.input = none) :
    IsWellFormed m.subject := by
  unfold Minting.subject
  rw [hnone, getD_none]
  apply isWellFormed_of_low
  intro u hmem
  obtain hlabel | hrequest := List.mem_append.mp hmem
  · have hall : ∀ w ∈ codeUnits "req-", w < 0xD800 := by decide
    exact hall u hlabel
  have hunit := isBase64url_encode _ u hrequest
  unfold IsBase64url at hunit
  omega

theorem named_iff_wellFormed {m : Minting} :
    (∀ named ∈ serviceTokenSubjectOf m.call.method m.call.input, named = toWellFormed m.subject) ↔
      IsWellFormed m.subject := by
  cases hnamed : serviceTokenSubjectOf m.call.method m.call.input with
  | none => simp [unnamed_wellFormed hnamed]
  | some named =>
    have hsubject : m.subject = named := by
      unfold Minting.subject
      rw [hnamed, getD_some]
    rw [hsubject, IsWellFormed]
    simp [eq_comm]

end

section

def Minting.AcceptedByWorker (platform : Platform) (binding : ServiceCredentialBinding) (m : Minting) : Prop :=
  ∀ (v : ServiceTokenVerifier) (wall mono : ℚ) (bindings : List ServiceCredentialBinding),
    m.now ≤ wall → wall ≤ m.expiresAt → m.nonce ∉ (v.sweep mono).seen → binding ∈ bindings →
    (∀ other ∈ bindings, (tunnelKeyOf platform other).length = 32 →
      MacsApart platform (tunnelKeyOf platform other) (tunnelKeyOf platform binding) (m.text platform)
        (m.text platform)) →
    ∃ granted ∈ bindings, tunnelKeyOf platform granted = tunnelKeyOf platform binding ∧
      (v.claimsFor platform m.node
        { token := some (mintServiceTokenWithKey platform (tunnelKeyOf platform binding) m)
          call := m.call, bindings, wall, mono }).1 = .accepted (claimsOf granted)

/-- No worker accepts the token for another call, or under another name. -/
def Minting.RefusedElsewhere (platform : Platform) (binding : ServiceCredentialBinding) (m : Minting) : Prop :=
  ∀ (v : ServiceTokenVerifier) (node : List Nat) (c : Presented),
    c.token = some (mintServiceTokenWithKey platform (tunnelKeyOf platform binding) m) →
    node ≠ m.node ∨ c.call ≠ m.call →
    DigestsApart platform (inputText c.call) (inputText m.call) →
    (∀ other ∈ c.bindings, (tunnelKeyOf platform other).length = 32 →
      MacsApart platform (tunnelKeyOf platform other) (tunnelKeyOf platform binding)
        (boundText platform node c.call (toWellFormed m.subject) m.expiresAt m.nonce) (m.text platform)) →
    (v.claimsFor platform node c).1.isAccepted = false

def Minting.RefusedOnceExpired (platform : Platform) (binding : ServiceCredentialBinding) (m : Minting) : Prop :=
  ∀ (v : ServiceTokenVerifier) (node : List Nat) (c : Presented),
    c.token = some (mintServiceTokenWithKey platform (tunnelKeyOf platform binding) m) →
    m.expiresAt < c.wall → (v.claimsFor platform node c).1.isAccepted = false

/-- The token can be read back, its node and its subject survive the bytes, and it does not reach too far ahead. -/
structure Minting.Verifiable (m : Minting) : Prop extends m.Legible where
  node_wellFormed : IsWellFormed m.node
  subject_wellFormed : IsWellFormed m.subject
  ahead : m.ttl ≤ SERVICE_TOKEN_MAX_AHEAD_MS

variable {hex : List Nat → List UInt8} {sha256 : List Nat → List Nat} {hmac : List UInt8 → List Nat → List UInt8}
  {binding : ServiceCredentialBinding} {m : Minting}

theorem not_accepted {platform : Platform} {node : List Nat} {v : ServiceTokenVerifier} {c : Presented}
    (hnever : ∀ parsed granted, admitted platform node c = .ok parsed →
      mintedBy platform parsed node c.call c.bindings = some granted → False) :
    (v.claimsFor platform node c).1.isAccepted = false := by
  cases hverdict : (v.claimsFor platform node c).1 with
  | refused reason => rfl
  | accepted claims =>
    obtain ⟨parsed, granted, hadmitted, -, hminted, -⟩ := accepted_iff.mp hverdict
    exact (hnever parsed granted hadmitted hminted).elim

theorem mintedBy_some {platform : Platform} {parsed : ParsedServiceToken} {node : List Nat} {call : ServiceTokenCall}
    {bindings : List ServiceCredentialBinding} {granted : ServiceCredentialBinding}
    (hminted : mintedBy platform parsed node call bindings = some granted) :
    granted ∈ bindings ∧ (tunnelKeyOf platform granted).length = 32 ∧
      serviceTokenMac platform (tunnelKeyOf platform granted) node call parsed.subject parsed.expiresAt parsed.nonce =
        parsed.mac := by
  have hholds := List.find?_some hminted
  simp only [Bool.and_eq_true, decide_eq_true_eq] at hholds
  exact ⟨List.mem_of_find?_eq_some hminted, hholds.1, hholds.2⟩

theorem refusedElsewhere_mint (hdigest : ∀ key text, (hmac key text).length = 32) :
    m.RefusedElsewhere (nodePlatform hex sha256 hmac) binding := by
  intro v node c htoken hdiffers hdigests hmacs
  apply not_accepted
  intro parsed granted hadmitted hminted
  obtain ⟨-, rfl, -⟩ := (admitted_mint (hdigest _ _) htoken).mp hadmitted
  obtain ⟨hmem, hkey, hfound⟩ := mintedBy_some hminted
  obtain ⟨-, htext⟩ := hmacs granted hmem hkey hfound
  obtain ⟨hnode, hcall⟩ := boundText_inj _ hdigests htext
  obtain hother | hother := hdiffers
  · exact hother hnode
  · exact hother hcall

theorem refusedOnceExpired_mint (hdigest : ∀ key text, (hmac key text).length = 32) :
    m.RefusedOnceExpired (nodePlatform hex sha256 hmac) binding := by
  intro v node c htoken hlate
  apply not_accepted
  intro parsed granted hadmitted hminted
  obtain ⟨-, rfl, hrefusal⟩ := (admitted_mint (hdigest _ _) htoken).mp hadmitted
  obtain ⟨-, hexpiry, -⟩ := refusalFor_eq_none.mp hrefusal
  exact absurd hexpiry (not_le.mpr hlate)

theorem acceptedByWorker_of_verifiable (hkey : (tunnelKeyOf (nodePlatform hex sha256 hmac) binding).length = 32)
    (hdigest : ∀ key text, (hmac key text).length = 32) (hverifiable : m.Verifiable) :
    m.AcceptedByWorker (nodePlatform hex sha256 hmac) binding := by
  intro v wall mono bindings hfrom huntil hunspent hmem hmacs
  obtain ⟨hlegible, hnode, hsubject, hahead⟩ := hverifiable
  have hcovers : ∀ other, serviceTokenMac (nodePlatform hex sha256 hmac) (tunnelKeyOf (nodePlatform hex sha256 hmac) other)
      m.node m.call (toWellFormed m.subject) m.expiresAt m.nonce =
        hmac (tunnelKeyOf (nodePlatform hex sha256 hmac) other) (m.text (nodePlatform hex sha256 hmac)) := by
    intro other
    rw [hsubject]
    rfl
  -- the binding itself would be found, so one is
  obtain ⟨granted, hminted⟩ : ∃ granted, mintedBy (nodePlatform hex sha256 hmac)
      (m.readBack (m.mac (nodePlatform hex sha256 hmac) (tunnelKeyOf (nodePlatform hex sha256 hmac) binding)))
      m.node m.call bindings = some granted := by
    apply isSome_iff_exists.mp
    unfold mintedBy
    apply List.find?_isSome.mpr
    refine ⟨binding, hmem, ?_⟩
    simp only [Bool.and_eq_true, decide_eq_true_eq]
    exact ⟨hkey, hcovers binding⟩
  obtain ⟨hgranted, hlength, hfound⟩ := mintedBy_some hminted
  have hsame := hmacs granted hgranted hlength ((hcovers granted).symm.trans hfound)
  refine ⟨granted, hgranted, hsame.1, ?_⟩
  apply accepted_iff.mpr
  refine ⟨_, granted, (admitted_mint (hdigest _ _) rfl).mpr ⟨hlegible, rfl, ?_⟩, hunspent, hminted, rfl⟩
  apply refusalFor_eq_none.mpr
  refine ⟨hnode, huntil, ?_, named_iff_wellFormed.mpr hsubject⟩
  have hexpires : (m.expiresAt : ℚ) = m.now + m.ttl := by
    rw [Minting.expiresAt, Nat.cast_add]
  have hbound : (m.ttl : ℚ) ≤ SERVICE_TOKEN_MAX_AHEAD_MS := Nat.cast_le.mpr hahead
  show (m.expiresAt : ℚ) - wall ≤ SERVICE_TOKEN_MAX_AHEAD_MS
  linarith

theorem verifiable_of_acceptedByWorker (hdigest : ∀ key text, (hmac key text).length = 32)
    (haccepted : m.AcceptedByWorker (nodePlatform hex sha256 hmac) binding) : m.Verifiable := by
  have hexpires : (m.expiresAt : ℚ) = m.now + m.ttl := by
    rw [Minting.expiresAt, Nat.cast_add]
  have huntil : (m.now : ℚ) ≤ m.expiresAt := by
    have hnonneg : (0 : ℚ) ≤ m.ttl := Nat.cast_nonneg _
    linarith
  -- a fresh worker that keeps this one binding, at once
  obtain ⟨granted, -, -, hverdict⟩ := haccepted {} m.now 0 [binding] le_rfl huntil List.not_mem_nil
    (List.mem_singleton.mpr rfl) (by
      intro other hother _ _
      rw [List.mem_singleton.mp hother]
      exact ⟨rfl, rfl⟩)
  obtain ⟨parsed, _, hadmitted, -⟩ := accepted_iff.mp hverdict
  obtain ⟨hlegible, rfl, hrefusal⟩ := (admitted_mint (hdigest _ _) rfl).mp hadmitted
  obtain ⟨hnode, -, hahead, hnamed⟩ := refusalFor_eq_none.mp hrefusal
  refine ⟨hlegible, hnode, named_iff_wellFormed.mp hnamed, ?_⟩
  have hbound : (m.expiresAt : ℚ) - m.now ≤ SERVICE_TOKEN_MAX_AHEAD_MS := hahead
  rw [hexpires, add_sub_cancel_left] at hbound
  exact_mod_cast hbound

/-- A minted token is accepted by the binding's worker until it expires, and refused for every other call,
exactly where it can be verified at all. -/
theorem minted_token_round_trips (hex : List Nat → List UInt8) (sha256 : List Nat → List Nat)
    (hmac : List UInt8 → List Nat → List UInt8) (binding : ServiceCredentialBinding) (m : Minting)
    (hkey : (tunnelKeyOf (nodePlatform hex sha256 hmac) binding).length = 32)
    (hdigest : ∀ key text, (hmac key text).length = 32) :
    (m.AcceptedByWorker (nodePlatform hex sha256 hmac) binding ∧
      m.RefusedOnceExpired (nodePlatform hex sha256 hmac) binding ∧
      m.RefusedElsewhere (nodePlatform hex sha256 hmac) binding) ↔ m.Verifiable := by
  constructor
  · rintro ⟨haccepted, -⟩
    exact verifiable_of_acceptedByWorker hdigest haccepted
  intro hverifiable
  exact ⟨acceptedByWorker_of_verifiable hkey hdigest hverifiable, refusedOnceExpired_mint hdigest,
    refusedElsewhere_mint hdigest⟩

end

section

def sampleMinting (call : ServiceTokenCall) : Minting where
  node := codeUnits "worker1"
  call
  now := 1700000000000
  requestBytes := Vector.replicate 12 0
  nonceBytes := Vector.replicate 18 0

/-- The MAC of the sample minting under the key 00, 01, .. 1f. -/
def mintedMac : List UInt8 :=
  [226, 11, 190, 253, 0, 90, 99, 115, 213, 115, 178, 61, 55, 206, 210, 79,
    254, 60, 30, 76, 222, 6, 130, 144, 152, 112, 76, 30, 95, 108, 226, 21]

theorem minted_token_round_trips_sample :
    (sampleMinting sampleCall).AcceptedByWorker
      (nodePlatform samplePlatform.hex samplePlatform.sha256 fun _ _ => mintedMac) sampleBinding := by
  have hverifiable : (sampleMinting sampleCall).Verifiable := by
    refine ⟨⟨?_, ?_, ?_, ?_⟩, ?_, ?_, ?_⟩ <;> decide +kernel
  exact ((minted_token_round_trips samplePlatform.hex samplePlatform.sha256 (fun _ _ => mintedMac) sampleBinding
    (sampleMinting sampleCall) (by decide +kernel) fun _ _ => rfl).mpr hverifiable).1

/-- The same call for an attempt whose id is 700 times the letter a. -/
def longCall : ServiceTokenCall where
  method := codeUnits "inferenceRpc.status"
  input := some (.obj [(codeUnits "attemptId", .str (List.replicate 700 0x61))])
  relayPrincipal := codeUnits "central"

def longDigest : List Nat := codeUnits "yb-9b40Npqr9-FFzA1fdwXubXXj5Fc7lK_Wx4lRb24M"

def longMac : List UInt8 :=
  [78, 215, 39, 249, 32, 125, 243, 49, 196, 196, 159, 112, 71, 117, 235, 205,
    97, 213, 170, 145, 253, 107, 175, 202, 72, 38, 99, 221, 210, 148, 212, 188]

theorem long_attempt_token_is_refused :
    (sampleMinting longCall).tokenLength = 1031 ∧
    ¬ (sampleMinting longCall).AcceptedByWorker
      (nodePlatform samplePlatform.hex (fun _ => longDigest) fun _ _ => longMac) sampleBinding := by
  have hlength : (sampleMinting longCall).tokenLength = 1031 := by decide +kernel
  refine ⟨hlength, fun haccepted => ?_⟩
  have hfits := (verifiable_of_acceptedByWorker (fun _ _ => rfl) haccepted).length
  rw [hlength] at hfits
  exact absurd hfits (by decide)

end

end llamactl.server
