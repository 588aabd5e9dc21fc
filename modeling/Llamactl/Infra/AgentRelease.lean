import Llamactl.Collections.OrderedMap
import Llamactl.Js.Text
import Llamactl.Js.Utf8

open collections js List

namespace llamactl.infra.agentRelease

/-! `artifacts-fetch.ts`: an agent binary is downloaded, checked and published at the path the central serves. -/

def ALLOWED_TARGETS : List String := ["darwin-arm64", "darwin-x64", "linux-x64", "linux-arm64"]

/-- The directory of a tag: the sanitised tag is one segment, which `join` normalises. -/
inductive VersionDir where
  | child (name : List Nat)
  /-- the versions directory itself -/
  | root
  /-- the platform's directory -/
  | platform
  deriving DecidableEq

/-- The characters of `[A-Za-z0-9._+-]`. -/
def isSafeUnit (unit : Nat) : Bool :=
  (65 ≤ unit && unit ≤ 90) || (97 ≤ unit && unit ≤ 122) || (48 ≤ unit && unit ≤ 57) || unit ∈ [0x2E, 0x5F, 0x2B, 0x2D]

def agentVersionDir (tag : List Nat) : VersionDir :=
  let safe := tag.map fun unit => if isSafeUnit unit then unit else 0x5F
  if safe = [] ∨ safe = units "." then .root
  else if safe = units ".." then .platform
  else .child safe

/-- What stands at `<platform>/llamactl-agent`. -/
inductive TopLevel where
  | missing
  | link (dir : VersionDir)
  | file (bytes : List Nat)
  deriving DecidableEq

/-- A platform's directory: the top-level path and the binaries in the directories of the tags. -/
structure Platform where
  top : TopLevel
  versions : OrderedMap VersionDir (List Nat)

/-- The binary of a directory; that of the platform's directory is the top-level path. -/
def Platform.binary (platform : Platform) : VersionDir → Option (List Nat)
  | .platform =>
    match platform.top with
    | .missing => none
    | .file bytes => some bytes
    | .link .platform => none
    | .link dir => platform.versions.get? dir
  | dir => platform.versions.get? dir

/-- The bytes that are served: a link is followed. -/
def Platform.served (platform : Platform) : Option (List Nat) := platform.binary .platform

/-- `writeFileSync` at a binary's path; `none` where it throws. -/
def Platform.write (platform : Platform) (dir : VersionDir) (bytes : List Nat) : Option Platform :=
  match dir with
  | .platform =>
    match platform.top with
    | .missing => some { platform with top := .file bytes }
    | .file _ => some { platform with top := .file bytes }
    -- a link to itself cannot be opened
    | .link .platform => none
    | .link target => some { platform with versions := platform.versions.set target bytes }
  | dir => some { platform with versions := platform.versions.set dir bytes }

/-- A response that has come in. -/
structure Fetched where
  ok : Bool
  body : List Nat

inductive CopyAnswer where
  | ok
  /-- the write failed, after so many bytes if it had begun -/
  | failed (written : Option Nat)
  deriving DecidableEq

inductive Sidecar where
  | binary
  | sha256
  | sig
  | cert
  deriving DecidableEq

/-- What the calls of one fetch come back with; `none` is a throw. -/
structure Answers where
  latest : Option Fetched
  bin : Option Fetched
  sha : Option Fetched
  sig : Option Fetched
  cert : Option Fetched
  /-- whether a file of the version directory could be opened, which is made for the binary -/
  opens : Sidecar → Bool
  cosign : Option Bool
  unlink : Bool
  symlink : Bool
  copy : CopyAnswer

inductive VerifyMode where
  | skip
  | bestEffort
  | require
  deriving DecidableEq

structure FetchOptions where
  version : List Nat
  target : String
  verifySig : VerifyMode

inductive Reason where
  | unknownTarget
  | resolveFailed
  | assetMissing
  | downloadFailed
  | shaMismatch
  | sigVerifyFailed
  | pointerUpdateFailed
  deriving DecidableEq

inductive Result where
  | ok
  | failed (reason : Reason)
  | threw
  deriving DecidableEq

/-- A path a fetch writes to. -/
inductive Written where
  | beside (dir : VersionDir) (file : Sidecar)
  | pointer
  deriving DecidableEq

def isHexUnit (unit : Nat) : Bool :=
  (48 ≤ unit && unit ≤ 57) || (97 ≤ unit && unit ≤ 102) || (65 ≤ unit && unit ≤ 70)

def isWordUnit (unit : Nat) : Bool :=
  (65 ≤ unit && unit ≤ 90) || (97 ≤ unit && unit ≤ 122) || (48 ≤ unit && unit ≤ 57) || unit = 0x5F

def parseShaLine (raw : List Nat) : Option (List Nat) :=
  let trimmed := trimUnits raw
  let hex := trimmed.take 64
  if hex.length = 64 ∧ hex.all isHexUnit ∧ !(trimmed.drop 64).head?.any isWordUnit then
    some (hex.map fun unit => if 65 ≤ unit ∧ unit ≤ 70 then unit + 32 else unit)
  else none

section

variable (sha256hex : List Nat → List Nat)

def resolveLatestTag (answers : Answers) : Except Result (List Nat) :=
  match answers.latest with
  | none => .error .threw
  | some res =>
    if !res.ok then .error (.failed .resolveFailed)
    else
      match (parse (decodeText res.body)).bind (Json.get? "tag_name") with
      | some (.str tag) => if tag.isEmpty then .error (.failed .resolveFailed) else .ok tag
      | _ => .error (.failed .resolveFailed)

def resolveTag (opts : FetchOptions) (answers : Answers) : Except Result (List Nat) :=
  if opts.version = units "latest" then resolveLatestTag answers else .ok opts.version

/-- The bytes of the binary, which have the published hash. -/
def fetchAndVerifyAssets (answers : Answers) : Except Result (List Nat) :=
  match answers.bin, answers.sha with
  | some bin, some sha =>
    if !bin.ok then .error (.failed .assetMissing)
    else if !sha.ok then .error (.failed .assetMissing)
    else
      match parseShaLine (decodeText sha.body) with
      | none => .error (.failed .downloadFailed)
      | some expected => if sha256hex bin.body ≠ expected then .error (.failed .shaMismatch) else .ok bin.body
  | _, _ => .error (.failed .downloadFailed)

/-- Whether the signature verified, if it was tried, and the files this left. It may throw. -/
def maybeVerifySignature (mode : VerifyMode) (dir : VersionDir) (answers : Answers) :
    Option (Option Bool) × List Written :=
  if mode = .skip then (some none, [])
  else
    match answers.sig, answers.cert with
    | some sig, some cert =>
      if !sig.ok || !cert.ok then (some none, [])
      else if !answers.opens .sig then (none, [])
      else if !answers.opens .cert then (none, [.beside dir .sig])
      else (answers.cosign.map some, [.beside dir .sig, .beside dir .cert])
    | _, _ => (none, [])

def copyToPointer (platform : Platform) (dir : VersionDir) : CopyAnswer → Platform × Bool
  | .ok =>
    match (platform.binary dir).bind (platform.write .platform) with
    | some next => (next, true)
    | none => (platform, false)
  | .failed none => (platform, false)
  | .failed (some count) =>
    match (platform.binary dir).bind fun bytes => platform.write .platform (bytes.take count) with
    | some next => (next, false)
    | none => (platform, false)

/-- What is left at the top-level path when the old entry is removed, if it can be. -/
def leftover (top : TopLevel) (answers : Answers) : TopLevel :=
  if top ≠ .missing ∧ answers.unlink then .missing else top

def linkCurrentVersion (platform : Platform) (dir : VersionDir) (answers : Answers) : Platform × Bool :=
  let cleared := { platform with top := leftover platform.top answers }
  if cleared.top = .missing ∧ answers.symlink then ({ cleared with top := .link dir }, true)
  else copyToPointer cleared dir answers.copy

/-- What a fetch leaves: the platform's directory, the paths it wrote, the bytes `cosignVerifier` accepted, the result. -/
structure Outcome where
  platform : Platform
  wrote : List Written
  verified : Option (List Nat)
  result : Result

/-- The rest of a fetch once the binary is in its directory. -/
def publish (mode : VerifyMode) (dir : VersionDir) (answers : Answers) (placed : Platform) : Outcome :=
  if !answers.opens .sha256 then ⟨placed, [.beside dir .binary], none, .threw⟩
  else
    let wrote := [.beside dir .binary, .beside dir .sha256] ++ (maybeVerifySignature mode dir answers).2
    match (maybeVerifySignature mode dir answers).1 with
    | none => ⟨placed, wrote, none, .threw⟩
    | some signature =>
      let verified := if signature = some true then placed.binary dir else none
      if mode = .require ∧ signature ≠ some true then ⟨placed, wrote, verified, .failed .sigVerifyFailed⟩
      else
        let linked := linkCurrentVersion placed dir answers
        ⟨linked.1, wrote ++ [.pointer], verified, if linked.2 then .ok else .failed .pointerUpdateFailed⟩

def fetchAgentRelease (opts : FetchOptions) (answers : Answers) (platform : Platform) : Outcome :=
  if opts.target ∉ ALLOWED_TARGETS then ⟨platform, [], none, .failed .unknownTarget⟩
  else
    match resolveTag opts answers with
    | .error result => ⟨platform, [], none, result⟩
    | .ok tag =>
      match fetchAndVerifyAssets sha256hex answers with
      | .error result => ⟨platform, [], none, result⟩
      | .ok bytes =>
        match if answers.opens .binary then platform.write (agentVersionDir tag) bytes else none with
        | none => ⟨platform, [], none, .threw⟩
        | some placed => publish opts.verifySig (agentVersionDir tag) answers placed

end

/-- One platform's fetch. -/
structure Call where
  opts : FetchOptions
  answers : Answers

/-- An artifacts directory, with the bytes `cosignVerifier` has accepted so far. -/
structure Central where
  platforms : String → Platform
  verified : List (List Nat)

section

variable (sha256hex : List Nat → List Nat)

def Central.outcome (central : Central) (call : Call) : Outcome :=
  fetchAgentRelease sha256hex call.opts call.answers (central.platforms call.opts.target)

def Central.fetch (central : Central) (call : Call) : Central where
  platforms := Function.update central.platforms call.opts.target (central.outcome sha256hex call).platform
  verified := central.verified ++ (central.outcome sha256hex call).verified.toList

def Central.after (central : Central) (calls : List Call) : Central := calls.foldl (Central.fetch sha256hex) central

/-- A path in the platform's versions directory, or the top-level pointer. -/
def Written.Confined : Written → Prop
  | .beside dir _ => dir ≠ .platform
  | .pointer => True

/-- What a call owes to the binaries that are served. -/
structure Kept (start central : Central) (call : Call) : Prop where
  verified : ∀ target bytes, ((central.fetch sha256hex call).platforms target).served = some bytes →
    (start.platforms target).served = some bytes ∨ bytes ∈ (central.fetch sha256hex call).verified
  unchanged : ∀ reason, (central.outcome sha256hex call).result = .failed reason →
    ∀ target, ((central.fetch sha256hex call).platforms target).served = (central.platforms target).served
  confined : ∀ written ∈ (central.outcome sha256hex call).wrote, written.Confined

end

/-- `cosignVerifier` is reached with both files and accepts. -/
def Answers.signed (answers : Answers) : Bool :=
  answers.sig.any Fetched.ok && answers.cert.any Fetched.ok && answers.opens .sig && answers.opens .cert &&
    answers.cosign = some true

/-- The pointer can be moved: by a link in a free place, or by a copy. -/
def Moves (top : TopLevel) (answers : Answers) : Prop :=
  (leftover top answers = .missing ∧ answers.symlink) ∨ (answers.copy = .ok ∧ leftover top answers ≠ .link .platform)

/-- Nothing was removed or written when the pointer could not be moved. -/
def Untouched (top : TopLevel) (answers : Answers) : Prop :=
  leftover top answers = top ∧ (answers.copy = .failed none ∨ top = .link .platform)

/-- The call stays in the versions directory, overwrites the binary that is served with others only if it goes on to
publish them, and fails to move the pointer only where it has left it alone. -/
def Spared (sha256hex : List Nat → List Nat) (central : Central) (call : Call) : Prop :=
  ∀ tag bytes, resolveTag call.opts call.answers = .ok tag → fetchAndVerifyAssets sha256hex call.answers = .ok bytes →
    call.opts.target ∈ ALLOWED_TARGETS → call.answers.opens .binary →
    agentVersionDir tag ≠ .platform ∧
    ((central.platforms call.opts.target).top = .link (agentVersionDir tag) →
      (central.platforms call.opts.target).served = some bytes ∨
        (call.answers.opens .sha256 ∧ call.answers.signed ∧ Moves (central.platforms call.opts.target).top call.answers)) ∧
    (call.answers.opens .sha256 → call.answers.signed → ¬Moves (central.platforms call.opts.target).top call.answers →
      Untouched (central.platforms call.opts.target).top call.answers)

section

variable {platform : Platform} {dir : VersionDir} {bytes : List Nat} {answers : Answers}

def Platform.place (platform : Platform) (dir : VersionDir) (bytes : List Nat) : Platform :=
  { platform with versions := platform.versions.set dir bytes }

theorem write_of_ne_platform (hdir : dir ≠ .platform) : platform.write dir bytes = some (platform.place dir bytes) := by
  cases dir with
  | platform => exact absurd rfl hdir
  | child name => rfl
  | root => rfl

theorem binary_of_ne_platform (hdir : dir ≠ .platform) : platform.binary dir = platform.versions.get? dir := by
  cases dir with
  | platform => exact absurd rfl hdir
  | child name => rfl
  | root => rfl

theorem binary_place (hdir : dir ≠ .platform) : (platform.place dir bytes).binary dir = some bytes := by
  rw [binary_of_ne_platform hdir, Platform.place, OrderedMap.get?_set, if_pos rfl]

theorem served_link (hdir : dir ≠ .platform) (htop : platform.top = .link dir) :
    platform.served = platform.versions.get? dir := by
  cases dir with
  | platform => exact absurd rfl hdir
  | child name => simp [Platform.served, Platform.binary, htop]
  | root => simp [Platform.served, Platform.binary, htop]

theorem served_place_of_ne (htop : platform.top ≠ .link dir) : (platform.place dir bytes).served = platform.served := by
  obtain ⟨top, versions⟩ := platform
  cases top with
  | missing => rfl
  | file content => rfl
  | link target =>
    have hne : target ≠ dir := fun h => htop (by rw [h])
    cases target with
    | platform => rfl
    | child name => simp [Platform.served, Platform.binary, Platform.place, OrderedMap.get?_set, hne]
    | root => simp [Platform.served, Platform.binary, Platform.place, OrderedMap.get?_set, hne]

theorem served_place_of_eq (hdir : dir ≠ .platform) (htop : platform.top = .link dir) :
    (platform.place dir bytes).served = some bytes := by
  rw [@served_link (platform.place dir bytes) dir hdir htop, Platform.place, OrderedMap.get?_set, if_pos rfl]

theorem write_top (htop : platform.top ≠ .link .platform) :
    ∃ next, platform.write .platform bytes = some next ∧ next.served = some bytes := by
  obtain ⟨top, versions⟩ := platform
  cases top with
  | missing => exact ⟨_, rfl, rfl⟩
  | file content => exact ⟨_, rfl, rfl⟩
  | link target =>
    cases target with
    | platform => exact absurd rfl htop
    | child name => exact ⟨_, rfl, served_place_of_eq (by simp) rfl⟩
    | root => exact ⟨_, rfl, served_place_of_eq (by simp) rfl⟩

theorem copyToPointer_of_loop (htop : platform.top = .link .platform) (answer : CopyAnswer) :
    copyToPointer platform dir answer = (platform, false) := by
  have hwrite (content : List Nat) : platform.write .platform content = none := by
    unfold Platform.write
    rw [htop]
  cases answer with
  | ok => cases hread : platform.binary dir <;> simp [copyToPointer, hread, hwrite]
  | failed written =>
    cases written with
    | none => rfl
    | some count => cases hread : platform.binary dir <;> simp [copyToPointer, hread, hwrite]

theorem copyToPointer_failed (written : Option Nat) : (copyToPointer platform dir (.failed written)).2 = false := by
  cases written with
  | none => rfl
  | some count =>
    simp only [copyToPointer]
    split <;> rfl

theorem linkCurrentVersion_of_moves (hdir : dir ≠ .platform) (hbinary : platform.binary dir = some bytes)
    (hmoves : Moves platform.top answers) :
    (linkCurrentVersion platform dir answers).2 = true ∧
      (linkCurrentVersion platform dir answers).1.served = some bytes := by
  rw [binary_of_ne_platform hdir] at hbinary
  by_cases hlink : leftover platform.top answers = .missing ∧ answers.symlink
  · simp only [linkCurrentVersion, if_pos hlink]
    exact ⟨trivial, (served_link hdir rfl).trans hbinary⟩
  simp only [linkCurrentVersion, if_neg hlink]
  obtain ⟨hcopy, htop⟩ := hmoves.resolve_left hlink
  obtain ⟨next, hwrite, hserved⟩ := @write_top { platform with top := leftover platform.top answers } bytes htop
  have hread : ({ platform with top := leftover platform.top answers } : Platform).binary dir = some bytes :=
    (binary_of_ne_platform hdir).trans hbinary
  simp [hcopy, copyToPointer, hread, hwrite, hserved]

theorem linkCurrentVersion_of_not_moves (hmoves : ¬Moves platform.top answers) :
    (linkCurrentVersion platform dir answers).2 = false ∧
      (Untouched platform.top answers → (linkCurrentVersion platform dir answers).1 = platform) := by
  obtain ⟨hlink, hcopy⟩ := not_or.mp hmoves
  simp only [linkCurrentVersion, if_neg hlink]
  constructor
  · cases hanswer : answers.copy with
    | ok =>
      have htop : leftover platform.top answers = .link .platform := by
        by_contra hne
        exact hcopy ⟨hanswer, hne⟩
      rw [copyToPointer_of_loop htop]
    | failed written => exact copyToPointer_failed written
  rintro ⟨hleft, huntouched⟩
  rw [hleft]
  obtain hfailed | htop := huntouched
  · rw [hfailed]
    rfl
  · rw [copyToPointer_of_loop htop]

theorem maybeVerifySignature_iff :
    (maybeVerifySignature .require dir answers).1 = some (some true) ↔ answers.signed = true := by
  unfold maybeVerifySignature Answers.signed
  cases answers.sig with
  | none => simp
  | some sig =>
    cases answers.cert with
    | none => simp
    | some cert =>
      cases hsig : sig.ok <;> cases hcert : cert.ok <;> cases hopen : answers.opens .sig <;>
        cases hopen' : answers.opens .cert <;> simp [hsig, hcert]

theorem maybeVerifySignature_beside (mode : VerifyMode) {written : Written}
    (hmem : written ∈ (maybeVerifySignature mode dir answers).2) : ∃ file, written = .beside dir file := by
  unfold maybeVerifySignature at hmem
  split at hmem
  · cases hmem
  split at hmem
  · split at hmem
    · cases hmem
    split at hmem
    · cases hmem
    split at hmem
    · exact ⟨_, mem_singleton.mp hmem⟩
    simp only [mem_cons, not_mem_nil, or_false] at hmem
    obtain rfl | rfl := hmem
    · exact ⟨_, rfl⟩
    · exact ⟨_, rfl⟩
  · cases hmem

end

section

variable {sha256hex : List Nat → List Nat} {start central : Central} {call : Call}

/-- Under `require` the binary is published if it is signed, and only then. -/
theorem publish_require {dir : VersionDir} {answers : Answers} {placed : Platform} :
    (¬(answers.opens .sha256 ∧ answers.signed) ∧ (publish .require dir answers placed).platform = placed) ∨
    (answers.opens .sha256 ∧ answers.signed ∧ (publish .require dir answers placed).verified = placed.binary dir ∧
      (publish .require dir answers placed).platform = (linkCurrentVersion placed dir answers).1 ∧
      ((publish .require dir answers placed).result = .ok ↔ (linkCurrentVersion placed dir answers).2 = true)) := by
  by_cases hopens : answers.opens .sha256
  · by_cases hsigned : answers.signed = true
    · have hverified := (@maybeVerifySignature_iff dir answers).mpr hsigned
      simp [publish, hopens, hsigned, hverified]
    left
    have hverified := fun h => hsigned ((@maybeVerifySignature_iff dir answers).mp h)
    refine ⟨fun h => hsigned h.2, ?_⟩
    cases hcheck : (maybeVerifySignature .require dir answers).1 with
    | none => simp [publish, hopens, hcheck]
    | some signature =>
      have hne : signature ≠ some true := fun h => hverified (h ▸ hcheck)
      simp [publish, hopens, hcheck, hne]
  · simp [publish, hopens]

theorem publish_wrote {mode : VerifyMode} {dir : VersionDir} {answers : Answers} {placed : Platform} {written : Written}
    (hmem : written ∈ (publish mode dir answers placed).wrote) : written = .pointer ∨ ∃ file, written = .beside dir file := by
  have hwrote (rest : List Written) (hrest : ∀ path ∈ rest, path = .pointer)
      (hmem : written ∈ [.beside dir .binary, .beside dir .sha256] ++ (maybeVerifySignature mode dir answers).2 ++ rest) :
      written = .pointer ∨ ∃ file, written = .beside dir file := by
    simp only [mem_append, mem_cons, not_mem_nil, or_false] at hmem
    obtain ((rfl | rfl) | hside) | hpointer := hmem
    · exact .inr ⟨_, rfl⟩
    · exact .inr ⟨_, rfl⟩
    · exact .inr (maybeVerifySignature_beside mode hside)
    · exact .inl (hrest _ hpointer)
  unfold publish at hmem
  split at hmem
  · exact .inr ⟨.binary, mem_singleton.mp hmem⟩
  dsimp only at hmem
  split at hmem
  · exact hwrote [] (by simp) (by simpa using hmem)
  split at hmem
  · exact hwrote [] (by simp) (by simpa using hmem)
  · exact hwrote [.pointer] (by simp) hmem

/-- A fetch leaves the disk alone, or it has a binary whose hash is right and puts it in the tag's directory. -/
theorem fetchAgentRelease_cases (platform : Platform) :
    ((fetchAgentRelease sha256hex call.opts call.answers platform).platform = platform ∧
      (fetchAgentRelease sha256hex call.opts call.answers platform).wrote = []) ∨
    ∃ tag bytes placed, resolveTag call.opts call.answers = .ok tag ∧
      fetchAndVerifyAssets sha256hex call.answers = .ok bytes ∧ call.opts.target ∈ ALLOWED_TARGETS ∧
      call.answers.opens .binary ∧ platform.write (agentVersionDir tag) bytes = some placed ∧
      fetchAgentRelease sha256hex call.opts call.answers platform =
        publish call.opts.verifySig (agentVersionDir tag) call.answers placed := by
  by_cases htarget : call.opts.target ∈ ALLOWED_TARGETS
  swap
  · left
    simp [fetchAgentRelease, htarget]
  cases htag : resolveTag call.opts call.answers with
  | error result =>
    left
    simp [fetchAgentRelease, htarget, htag]
  | ok tag =>
    cases hassets : fetchAndVerifyAssets sha256hex call.answers with
    | error result =>
      left
      simp [fetchAgentRelease, htarget, htag, hassets]
    | ok bytes =>
      cases hwrite : if call.answers.opens .binary then platform.write (agentVersionDir tag) bytes else none with
      | none =>
        left
        simp [fetchAgentRelease, htarget, htag, hassets, hwrite]
      | some placed =>
        right
        have hopened : call.answers.opens .binary := by
          by_contra hclosed
          rw [if_neg hclosed] at hwrite
          cases hwrite
        refine ⟨tag, bytes, placed, rfl, rfl, htarget, hopened, ?_, ?_⟩
        · rwa [if_pos hopened] at hwrite
        · simp only [fetchAgentRelease, if_neg (not_not.mpr htarget), htag, hassets, hwrite]

theorem fetchAgentRelease_served (hrequire : call.opts.verifySig = .require) (hspared : Spared sha256hex central call) :
    ((central.outcome sha256hex call).platform.served = (central.platforms call.opts.target).served ∨
      (central.outcome sha256hex call).result = .ok ∧
        (central.outcome sha256hex call).platform.served = (central.outcome sha256hex call).verified) ∧
    ∀ written ∈ (central.outcome sha256hex call).wrote, written.Confined := by
  unfold Central.outcome
  obtain ⟨hsame, hwrote⟩ | ⟨tag, bytes, placed, htag, hassets, htarget, hopened, hwrite, heq⟩ :=
    @fetchAgentRelease_cases sha256hex call (central.platforms call.opts.target)
  · rw [hsame, hwrote]
    exact ⟨.inl rfl, fun _ hmem => absurd hmem not_mem_nil⟩
  obtain ⟨hdir, hlive, hpointer⟩ := hspared tag bytes htag hassets htarget hopened
  rw [write_of_ne_platform hdir] at hwrite
  cases hwrite
  rw [heq, hrequire]
  constructor
  swap
  · intro written hmem
    obtain rfl | ⟨file, rfl⟩ := publish_wrote hmem
    · trivial
    · exact hdir
  obtain ⟨hunsigned, hplatform⟩ | ⟨hsha, hsigned, hverified, hplatform, hok⟩ := @publish_require
    (agentVersionDir tag) call.answers ((central.platforms call.opts.target).place (agentVersionDir tag) bytes)
  · left
    rw [hplatform]
    by_cases htop : (central.platforms call.opts.target).top = .link (agentVersionDir tag)
    · obtain hserved | ⟨hsha, hsigned, -⟩ := hlive htop
      · rw [served_place_of_eq hdir htop, hserved]
      · exact absurd ⟨hsha, hsigned⟩ hunsigned
    · exact served_place_of_ne htop
  rw [hplatform, hverified, binary_place hdir]
  by_cases hmoves : Moves (central.platforms call.opts.target).top call.answers
  · right
    obtain ⟨hlinked, hserved⟩ := linkCurrentVersion_of_moves hdir (binary_place hdir) hmoves
    exact ⟨hok.mpr hlinked, hserved⟩
  left
  obtain ⟨-, hkept⟩ := @linkCurrentVersion_of_not_moves
    ((central.platforms call.opts.target).place (agentVersionDir tag) bytes) (agentVersionDir tag) call.answers hmoves
  rw [hkept (hpointer hsha hsigned hmoves)]
  by_cases htop : (central.platforms call.opts.target).top = .link (agentVersionDir tag)
  · obtain hserved | ⟨-, -, hyes⟩ := hlive htop
    · rw [served_place_of_eq hdir htop, hserved]
    · exact absurd hyes hmoves
  · exact served_place_of_ne htop

def Central.Verified (start central : Central) : Prop :=
  ∀ target bytes, (central.platforms target).served = some bytes →
    (start.platforms target).served = some bytes ∨ bytes ∈ central.verified

theorem fetch_kept (hrequire : call.opts.verifySig = .require) (hverified : start.Verified central)
    (hspared : Spared sha256hex central call) : Kept sha256hex start central call := by
  obtain ⟨hserved, hconfined⟩ := fetchAgentRelease_served hrequire hspared
  refine ⟨?_, ?_, hconfined⟩
  · intro target bytes hbytes
    have hkeep (hold : (central.platforms target).served = some bytes) :
        (start.platforms target).served = some bytes ∨ bytes ∈ (central.fetch sha256hex call).verified := by
      obtain hstart | hmem := hverified target bytes hold
      · exact .inl hstart
      · exact .inr (mem_append_left _ hmem)
    by_cases htarget : target = call.opts.target
    · subst htarget
      simp only [Central.fetch, Function.update_self] at hbytes
      obtain hsame | ⟨-, hnew⟩ := hserved
      · exact hkeep (hsame ▸ hbytes)
      right
      apply mem_append_right
      simp [← hnew, hbytes]
    · simp only [Central.fetch, Function.update_of_ne htarget] at hbytes
      exact hkeep hbytes
  intro reason hfailed target
  by_cases htarget : target = call.opts.target
  · subst htarget
    simp only [Central.fetch, Function.update_self]
    obtain hsame | ⟨hok, -⟩ := hserved
    · exact hsame
    · cases hok.symm.trans hfailed
  · simp only [Central.fetch, Function.update_of_ne htarget]

theorem after_append (calls : List Call) :
    central.after sha256hex (calls ++ [call]) = (central.after sha256hex calls).fetch sha256hex call := by
  simp [Central.after]

end

/-- In every run of fetches that require a signature and are spared, what is served is what was there at the start or has
been verified, a failed fetch changes nothing that is served, and every fetch stays in the versions directory. -/
theorem published_binaries_verified (sha256hex : List Nat → List Nat) (platforms : String → Platform) (calls : List Call)
    (hrequire : ∀ call ∈ calls, call.opts.verifySig = .require)
    (hspared : ∀ before call after, calls = before ++ call :: after →
      Spared sha256hex ((Central.mk platforms []).after sha256hex before) call) :
    ∀ before call after, calls = before ++ call :: after →
      Kept sha256hex ⟨platforms, []⟩ ((Central.mk platforms []).after sha256hex before) call := by
  intro before call after hsplit
  have hverified : Central.Verified ⟨platforms, []⟩ ((Central.mk platforms []).after sha256hex before) := by
    induction before using List.reverseRecOn generalizing call after with
    | nil =>
      intro target bytes hserved
      exact .inl hserved
    | append_singleton before last ih =>
      have hsplit' : calls = before ++ last :: (call :: after) := by simp [hsplit]
      rw [after_append]
      exact (fetch_kept (hrequire last (by simp [hsplit'])) (ih last _ hsplit') (hspared before last _ hsplit')).verified
  exact fetch_kept (hrequire call (by simp [hsplit])) hverified (hspared before call after hsplit)

section

def constantHash (_ : List Nat) : List Nat := List.replicate 64 97

/-- A fetch of `v1` that serves the byte 2 with its hash, and the answers that differ. -/
def fetchV1 (cosign : Bool) : Call where
  opts := ⟨units "v1", "linux-x64", .require⟩
  answers := ⟨none, some ⟨true, [2]⟩, some ⟨true, List.replicate 64 97⟩, some ⟨true, []⟩, some ⟨true, []⟩, fun _ => true,
    some cosign, true, true, .failed none⟩

/-- Every platform serves the byte 1 through a link to `v1`. -/
def serving : String → Platform := fun _ => ⟨.link (.child (units "v1")), OrderedMap.empty.set (.child (units "v1")) [1]⟩

theorem published_binaries_verified_v1 :
    Kept constantHash ⟨serving, []⟩ ⟨serving, []⟩ (fetchV1 true) ∧
      (((Central.mk serving []).fetch constantHash (fetchV1 true)).platforms "linux-x64").served = some [2] := by
  have hkept := published_binaries_verified constantHash serving [fetchV1 true]
    (by intro call hmem; rw [mem_singleton.mp hmem]; rfl)
    (by
      intro before call after hsplit
      obtain ⟨rfl, rfl⟩ : before = [] ∧ call = fetchV1 true := by
        cases before with
        | nil => exact ⟨rfl, (List.cons.inj hsplit).1.symm⟩
        | cons first before => simp at hsplit
      intro tag bytes htag hassets htarget hopened
      cases htag
      have hmoves : Moves (((Central.mk serving []).after constantHash []).platforms (fetchV1 true).opts.target).top
          (fetchV1 true).answers := .inl (by decide)
      exact ⟨by decide, fun _ => .inr ⟨rfl, by decide, hmoves⟩, fun _ _ hnot => absurd hmoves hnot⟩)
    [] _ [] rfl
  exact ⟨hkept, by decide +kernel⟩

/-- A new build of the tag that is live is served although its signature is rejected and the fetch fails. -/
theorem rejected_binary_is_served :
    ¬∀ (sha256hex : List Nat → List Nat) (platforms : String → Platform) (calls : List Call),
      (∀ call ∈ calls, call.opts.verifySig = .require) →
      ∀ before call after, calls = before ++ call :: after →
        Kept sha256hex ⟨platforms, []⟩ ((Central.mk platforms []).after sha256hex before) call := by
  intro hclaim
  have hkept := hclaim constantHash serving [fetchV1 false] (by intro call hmem; rw [mem_singleton.mp hmem]; rfl)
    [] _ [] rfl
  have hserved := hkept.unchanged .sigVerifyFailed (by decide +kernel) "linux-x64"
  revert hserved
  decide +kernel

end

end llamactl.infra.agentRelease
