import Llamactl.Effect.Transition
import Llamactl.Infra.Layout
import Llamactl.Js.Text

open collections effect List

namespace llamactl.infra

/-! Installing with the contents of the version directories: what a failed install leaves of them. -/

/-- The names that the router lets through to the file system. -/
def infraIdentifier (name : String) : Bool :=
  name ≠ "" && name.toList.all (fun c => c.isAlphanum || c ∈ ['_', '.', '+', '-']) &&
    name ≠ "." && name ≠ ".." && name ≠ "~"

/-- What stands at `current`, with the files of a directory. -/
inductive CurrentFiles (Tree : Type) where
  | absent
  | link (target : String)
  | directory (files : Tree)

def CurrentFiles.entry {Tree : Type} : CurrentFiles Tree → CurrentEntry
  | .absent => .absent
  | .link target => .link target
  | .directory _ => .directory

structure PackageFiles (Tree : Type) where
  versions : OrderedMap String Tree
  current : CurrentFiles Tree
  reserved : "current" ∉ versions.keys

namespace PackageFiles

variable {Tree : Type}

def empty : PackageFiles Tree := ⟨OrderedMap.empty, .absent, not_mem_nil⟩

def layout (dir : PackageFiles Tree) : PackageDir :=
  ⟨dir.versions.keys, dir.current.entry, dir.versions.nodup, dir.reserved⟩

def setVersion (dir : PackageFiles Tree) (version : String) (files : Tree) (hversion : version ≠ "current") :
    PackageFiles Tree :=
  { dir with
    versions := (dir.versions.erase version).set version files
    reserved := by
      intro hmem
      obtain ⟨entry, hentry, heq⟩ := mem_map.mp hmem
      rcases ((dir.versions.erase version).mem_set_entries (k := entry.1) (v := entry.2)).mp hentry with
        ⟨hkey, -⟩ | ⟨-, hold⟩
      · exact hversion (hkey.symm.trans heq)
      · have hin := (dir.versions.mem_erase_entries.mp hold).2
        exact dir.reserved (mem_map.mpr ⟨entry, hin, heq⟩) }

/-- What an install leaves at the path of the version: an entry that exists there is removed, the directory is made
and these files are copied into it. A link to nothing is not removed, and no directory can be made over it. -/
def place (dir : PackageFiles Tree) (path version : String) (files : Tree) : Except String (PackageFiles Tree) :=
  if hversion : version = "current" then
    match dir.current with
    | .link _ =>
      if dir.layout.versionExists version then .ok { dir with current := .directory files }
      else .error s!"EEXIST: file already exists, mkdir '{path}'"
    | _ => .ok { dir with current := .directory files }
  else .ok (dir.setVersion version files hversion)

/-- `activateInfraVersion` changes the link only. -/
def activate (base pkg version : String) (dir : PackageFiles Tree) : Except String (PackageFiles Tree) :=
  match activateInfraVersion base pkg version dir.layout with
  | .error message => .error message
  | .ok _ => .ok { dir with current := .link version }

end PackageFiles

/-- `InstallInfraOptions`, with the names checked by the router. -/
structure InstallOptions where
  pkg : String
  version : String
  tarballUrl : String
  sha256 : String
  skipIfPresent : Bool := true
  activate : Bool := true
  pkgName : infraIdentifier pkg = true := by decide
  versionName : infraIdentifier version = true := by decide

/-- How the copy into the version directory ends; one that fails leaves these files. -/
inductive Copy (Tree : Type) where
  | copied
  | failed (code : Nat) (stderr : String) (left : Tree)

/-- What an install meets on its way. -/
structure InstallAnswers (Tree : Type) where
  fetched : Except String (List Nat)
  extracted : Except String Unit
  copy : Copy Tree

inductive InstallState where
  | installed
  | alreadyPresent
  deriving DecidableEq

inductive FailReason where
  | shaMismatch
  | fetchFailed
  | extractFailed
  deriving DecidableEq

inductive InstallResult where
  | ok (state : InstallState) (versionDir : String) (activated : Bool)
  | failed (reason : FailReason) (error : String)
  /-- the promise is rejected -/
  | thrown (message : String)
  deriving DecidableEq

def InstallResult.isOk : InstallResult → Bool
  | .ok .. => true
  | _ => false

section

variable {Tree : Type} (digest : List Nat → String) (untar : List Nat → Tree)

/-- The staged tarball: fetched, verified and extracted. -/
def stage (options : InstallOptions) (answers : InstallAnswers Tree) : Except InstallResult (List Nat) :=
  match answers.fetched with
  | .error message => .error (.failed .fetchFailed message)
  | .ok bytes =>
    let actualSha := digest bytes
    if actualSha ≠ options.sha256.toLower then
      .error (.failed .shaMismatch s!"expected sha256 {options.sha256}, got {actualSha}")
    else
      match answers.extracted with
      | .error message => .error (.failed .extractFailed message)
      | .ok () => .ok bytes

/-- The last step of both ways through an install. -/
def finish (base : String) (options : InstallOptions) (state : InstallState) (dir : PackageFiles Tree) :
    PackageFiles Tree × InstallResult :=
  let versionDir := infraVersionDir base options.pkg options.version
  if options.activate then
    match dir.activate base options.pkg options.version with
    | .error message => (dir, .thrown message)
    | .ok next => (next, .ok state versionDir true)
  else (dir, .ok state versionDir false)

/-- The install finds the version's directory and leaves it as it is. -/
def isPresent (options : InstallOptions) (dir : PackageFiles Tree) : Bool :=
  options.skipIfPresent && dir.layout.versionExists options.version

/-- `installInfraPackage` in the package's directory, which it makes first. -/
def installFiles (base : String) (options : InstallOptions) (answers : InstallAnswers Tree) (dir : PackageFiles Tree) :
    PackageFiles Tree × InstallResult :=
  if isPresent options dir then finish base options .alreadyPresent dir
  else
    match stage digest options answers with
    | .error result => (dir, result)
    | .ok bytes =>
      let versionDir := infraVersionDir base options.pkg options.version
      match answers.copy with
      | .failed code stderr left =>
        match dir.place versionDir options.version left with
        | .error message => (dir, .thrown message)
        | .ok next => (next, .failed .extractFailed s!"cp exited {code}: {js.trim stderr}")
      | .copied =>
        match dir.place versionDir options.version (untar bytes) with
        | .error message => (dir, .thrown message)
        | .ok next => finish base options .installed next

/-- The tarball whose checksum the call compared and found right. -/
def matched (options : InstallOptions) (answers : InstallAnswers Tree) (dir : PackageFiles Tree) : Option (List Nat) :=
  if isPresent options dir then none
  else
    match answers.fetched with
    | .error _ => none
    | .ok bytes => if digest bytes = options.sha256.toLower then some bytes else none

end

/-- The infra directory with its files, and the tarballs that matched in some call for a version. -/
structure InfraFiles (Tree : Type) where
  packages : OrderedMap String (PackageFiles Tree) := OrderedMap.empty
  verified : List (String × String × List Nat) := []

structure InstallCall (Tree : Type) where
  options : InstallOptions
  answers : InstallAnswers Tree

section

variable {Tree : Type} (digest : List Nat → String) (untar : List Nat → Tree) (base : String)

def InfraFiles.package (w : InfraFiles Tree) (pkg : String) : PackageFiles Tree :=
  (w.packages.get? pkg).getD PackageFiles.empty

def InfraFiles.versions (w : InfraFiles Tree) (pkg : String) : OrderedMap String Tree := (w.package pkg).versions

def InfraFiles.active (w : InfraFiles Tree) (pkg : String) : Option String := (w.package pkg).layout.active

def installCall (w : InfraFiles Tree) (call : InstallCall Tree) : InfraFiles Tree × InstallResult :=
  let pkg := call.options.pkg
  let installed := installFiles digest untar base call.options call.answers (w.package pkg)
  ({ packages := w.packages.set pkg installed.1
     verified := w.verified ++
       ((matched digest call.options call.answers (w.package pkg)).map fun bytes =>
         (pkg, call.options.version, bytes)).toList },
    installed.2)

def installStep (w : InfraFiles Tree) (call : InstallCall Tree) : Option (InfraFiles Tree) :=
  some (installCall digest untar base w call).1

/-- Every installed version holds the whole content of a tarball that matched for it. -/
def Complete (w : InfraFiles Tree) : Prop :=
  ∀ pkg version files, (w.versions pkg).get? version = some files →
    ∃ bytes, (pkg, version, bytes) ∈ w.verified ∧ files = untar bytes

/-- A call that fails leaves the installed versions and the active one; after one that does not, the version it was
called for holds the whole content of a tarball that matched. -/
structure AllOrNothing (w : InfraFiles Tree) (call : InstallCall Tree) : Prop where
  failed : (installCall digest untar base w call).2.isOk = false → ∀ pkg,
    (installCall digest untar base w call).1.versions pkg = w.versions pkg ∧
      (installCall digest untar base w call).1.active pkg = w.active pkg
  done : (installCall digest untar base w call).2.isOk = true → ∃ bytes,
    (call.options.pkg, call.options.version, bytes) ∈ (installCall digest untar base w call).1.verified ∧
      ((installCall digest untar base w call).1.versions call.options.pkg).get? call.options.version =
        some (untar bytes)

/-- A copy that the call comes to does not fail, and the version is not named like the link. -/
structure CopiesWhole (w : InfraFiles Tree) (call : InstallCall Tree) : Prop where
  version : call.options.version ≠ "current"
  copy : isPresent call.options (w.package call.options.pkg) = false →
    (stage digest call.options call.answers).toBool = true → ∀ code stderr left,
      call.answers.copy ≠ .failed code stderr left

end

section

variable {Tree : Type} {digest : List Nat → String} {untar : List Nat → Tree} {base : String}

variable (digest untar base) in
@[simp] theorem InfraFiles.package_installCall (w : InfraFiles Tree) (call : InstallCall Tree) (pkg : String) :
    (installCall digest untar base w call).1.package pkg =
      if pkg = call.options.pkg then
        (installFiles digest untar base call.options call.answers (w.package call.options.pkg)).1
      else w.package pkg := by
  rw [installCall, InfraFiles.package, OrderedMap.get?_set]
  split
  · rfl
  · rfl

theorem PackageFiles.mem_layout_versions {dir : PackageFiles Tree} {version : String} :
    version ∈ dir.layout.versions ↔ ∃ files, dir.versions.get? version = some files := by
  have hnone : dir.versions.get? version = none ↔ version ∉ dir.versions.keys := dir.versions.get?_eq_none_iff
  cases hget : dir.versions.get? version with
  | none => simpa [layout] using hnone.mp hget
  | some files =>
    rw [hget] at hnone
    simpa [layout] using hnone

theorem PackageFiles.get?_setVersion (dir : PackageFiles Tree) {version : String} (files : Tree)
    (hversion : version ≠ "current") (other : String) :
    (dir.setVersion version files hversion).versions.get? other =
      if other = version then some files else dir.versions.get? other := by
  rw [setVersion, OrderedMap.get?_set, OrderedMap.get?_erase]
  split
  · rfl
  · rfl

theorem CurrentFiles.entry_ne_directory {entry : CurrentFiles Tree} (h : ∀ files, entry ≠ .directory files) :
    entry.entry ≠ .directory := by
  cases entry with
  | directory files => exact absurd rfl (h files)
  | _ => simp [CurrentFiles.entry]

/-- With the version in its place and no directory at `current`, the last step only moves the link. -/
theorem finish_spec (base : String) (options : InstallOptions) (state : InstallState) (dir : PackageFiles Tree)
    (hcurrent : ∀ files, dir.current ≠ .directory files) (hexists : dir.layout.versionExists options.version = true) :
    (finish base options state dir).2.isOk = true ∧ (finish base options state dir).1.versions = dir.versions ∧
      ∀ files, (finish base options state dir).1.current ≠ .directory files := by
  unfold finish
  dsimp only
  split
  · have hok := activateInfraVersion_ok base options.pkg (CurrentFiles.entry_ne_directory hcurrent) hexists
    rw [PackageFiles.activate, hok]
    exact ⟨rfl, rfl, nofun⟩
  · exact ⟨rfl, rfl, hcurrent⟩

/-- What an install does to a package's directory when its copy does not fail. -/
inductive Outcome (digest : List Nat → String) (untar : List Nat → Tree) (call : InstallCall Tree)
    (dir next : PackageFiles Tree) : Bool → Prop where
  | failed : next = dir → Outcome digest untar call dir next false
  | present : call.options.version ∈ dir.layout.versions → next.versions = dir.versions →
      Outcome digest untar call dir next true
  | placed {bytes : List Nat} : matched digest call.options call.answers dir = some bytes →
      (∀ other, next.versions.get? other =
        if other = call.options.version then some (untar bytes) else dir.versions.get? other) →
      Outcome digest untar call dir next true

theorem stage_ok {options : InstallOptions} {answers : InstallAnswers Tree} {bytes : List Nat}
    (h : stage digest options answers = .ok bytes) :
    answers.fetched = .ok bytes ∧ digest bytes = options.sha256.toLower := by
  unfold stage at h
  split at h
  · cases h
  rename_i fetched hfetched
  dsimp only at h
  split at h
  · cases h
  rename_i hsha
  split at h
  · cases h
  · cases h
    exact ⟨hfetched, not_not.mp hsha⟩

theorem stage_error {options : InstallOptions} {answers : InstallAnswers Tree} {result : InstallResult}
    (h : stage digest options answers = .error result) : result.isOk = false := by
  unfold stage at h
  split at h
  · cases h
    rfl
  dsimp only at h
  split at h
  · cases h
    rfl
  split at h
  · cases h
    rfl
  · cases h

theorem installFiles_spec {w : InfraFiles Tree} {call : InstallCall Tree} (hwhole : CopiesWhole digest w call)
    (hcurrent : ∀ files, (w.package call.options.pkg).current ≠ .directory files) :
    Outcome digest untar call (w.package call.options.pkg)
      (installFiles digest untar base call.options call.answers (w.package call.options.pkg)).1
      (installFiles digest untar base call.options call.answers (w.package call.options.pkg)).2.isOk ∧
    ∀ files, (installFiles digest untar base call.options call.answers (w.package call.options.pkg)).1.current ≠
      .directory files := by
  obtain ⟨hversion, hcopy⟩ := hwhole
  generalize w.package call.options.pkg = dir at *
  unfold installFiles
  by_cases hpresent : isPresent call.options dir = true
  · rw [if_pos hpresent]
    have hexists := (Bool.and_eq_true_iff.mp hpresent).2
    obtain ⟨hok, hversions, hlink⟩ := finish_spec base call.options .alreadyPresent dir hcurrent hexists
    rw [hok]
    refine ⟨.present ?_ hversions, hlink⟩
    rw [PackageDir.versionExists, if_neg hversion] at hexists
    exact of_decide_eq_true hexists
  rw [if_neg hpresent]
  cases hstage : stage digest call.options call.answers with
  | error result =>
    dsimp only
    rw [stage_error hstage]
    exact ⟨.failed rfl, hcurrent⟩
  | ok bytes =>
    have hcopied : call.answers.copy = .copied := by
      cases hanswer : call.answers.copy with
      | copied => rfl
      | failed code stderr left =>
        exact absurd hanswer (hcopy (by simpa using hpresent) (by rw [hstage]; rfl) code stderr left)
    dsimp only
    rw [hcopied, PackageFiles.place, dif_neg hversion]
    dsimp only
    have hget := dir.get?_setVersion (untar bytes) hversion
    have hmem : call.options.version ∈ (dir.setVersion call.options.version (untar bytes) hversion).layout.versions :=
      PackageFiles.mem_layout_versions.mpr ⟨untar bytes, by rw [hget, if_pos rfl]⟩
    obtain ⟨hok, hversions, hlink⟩ := finish_spec base call.options .installed
      (dir.setVersion call.options.version (untar bytes) hversion) hcurrent
      (PackageDir.versionExists_of_mem hmem)
    rw [hok]
    obtain ⟨hfetched, hsha⟩ := stage_ok hstage
    have hmatched : matched digest call.options call.answers dir = some bytes := by
      rw [matched, if_neg hpresent, hfetched]
      exact if_pos hsha
    refine ⟨.placed hmatched ?_, hlink⟩
    intro other
    rw [hversions, hget]

/-- The state between the calls of a run whose copies do not fail. -/
structure Sound (untar : List Nat → Tree) (w : InfraFiles Tree) : Prop where
  complete : Complete untar w
  current : ∀ pkg files, (w.package pkg).current ≠ .directory files

theorem Sound.empty : Sound untar ({} : InfraFiles Tree) := ⟨nofun, nofun⟩

theorem Complete.mono {w next : InfraFiles Tree} (h : Complete untar w)
    (hversions : ∀ pkg, next.versions pkg = w.versions pkg) (hverified : ∀ entry ∈ w.verified, entry ∈ next.verified) :
    Complete untar next := by
  intro pkg version files hget
  rw [hversions] at hget
  obtain ⟨bytes, hmem, hfiles⟩ := h pkg version files hget
  exact ⟨bytes, hverified _ hmem, hfiles⟩

theorem Sound.call {w : InfraFiles Tree} (h : Sound untar w) (base : String) {call : InstallCall Tree}
    (hwhole : CopiesWhole digest w call) :
    Sound untar (installCall digest untar base w call).1 ∧ AllOrNothing digest untar base w call := by
  have hspec : Outcome digest untar call _ (installFiles digest untar base call.options call.answers _).1 _ ∧ _ :=
    installFiles_spec hwhole (h.current _)
  obtain ⟨houtcome, hlink⟩ := hspec
  have hpackage := InfraFiles.package_installCall digest untar base w call
  have hverified : ∀ entry ∈ w.verified, entry ∈ (installCall digest untar base w call).1.verified :=
    fun entry hentry => mem_append_left _ hentry
  have hcurrent : ∀ pkg files, ((installCall digest untar base w call).1.package pkg).current ≠ .directory files := by
    intro pkg files
    rw [hpackage]
    split
    · exact hlink files
    · exact h.current pkg files
  have hkept : (installFiles digest untar base call.options call.answers (w.package call.options.pkg)).1.versions =
      (w.package call.options.pkg).versions → ∀ pkg,
      (installCall digest untar base w call).1.versions pkg = w.versions pkg := by
    intro hsame pkg
    rw [InfraFiles.versions, hpackage]
    split
    · rename_i heq
      rw [hsame, heq]
      rfl
    · rfl
  have hresult : (installCall digest untar base w call).2.isOk =
      (installFiles digest untar base call.options call.answers (w.package call.options.pkg)).2.isOk := rfl
  rw [← hresult] at houtcome
  generalize hok : (installCall digest untar base w call).2.isOk = ok at houtcome
  cases houtcome with
  | failed hsame =>
    have hversions := hkept (by rw [hsame])
    refine ⟨⟨h.complete.mono hversions hverified, hcurrent⟩, ?_, ?_⟩
    · intro _ pkg
      refine ⟨hversions pkg, ?_⟩
      rw [InfraFiles.active, hpackage, hsame]
      split
      · rename_i heq
        rw [← heq]
        rfl
      · rfl
    intro htrue
    rw [hok] at htrue
    cases htrue
  | present hmem hsame =>
    have hversions := hkept hsame
    refine ⟨⟨h.complete.mono hversions hverified, hcurrent⟩, ?_, ?_⟩
    · intro hfalse
      rw [hok] at hfalse
      cases hfalse
    intro _
    obtain ⟨files, hget⟩ := PackageFiles.mem_layout_versions.mp hmem
    obtain ⟨bytes, hin, rfl⟩ := h.complete _ _ files hget
    exact ⟨bytes, hverified _ hin, by rw [hversions]; exact hget⟩
  | @placed bytes hmatched hget =>
    have hin : (call.options.pkg, call.options.version, bytes) ∈ (installCall digest untar base w call).1.verified := by
      refine mem_append_right _ ?_
      rw [hmatched]
      exact mem_singleton_self _
    have hplaced : ∀ pkg version, ((installCall digest untar base w call).1.versions pkg).get? version =
        if pkg = call.options.pkg ∧ version = call.options.version then some (untar bytes)
        else (w.versions pkg).get? version := by
      intro pkg version
      rw [InfraFiles.versions, hpackage]
      by_cases hpkg : pkg = call.options.pkg
      · rw [if_pos hpkg, hget, hpkg]
        simp only [true_and]
        rfl
      · rw [if_neg hpkg, if_neg fun hboth => hpkg hboth.1]
        rfl
    refine ⟨⟨?_, hcurrent⟩, ?_, ?_⟩
    · intro pkg version files hfiles
      rw [hplaced] at hfiles
      split at hfiles
      · rename_i hboth
        obtain ⟨rfl, rfl⟩ := hboth
        exact ⟨bytes, hin, (Option.some.inj hfiles).symm⟩
      · obtain ⟨other, hmem, hother⟩ := h.complete pkg version files hfiles
        exact ⟨other, hverified _ hmem, hother⟩
    · intro hfalse
      rw [hok] at hfalse
      cases hfalse
    · intro _
      exact ⟨bytes, hin, by rw [hplaced, if_pos ⟨rfl, rfl⟩]⟩

theorem InfraFiles.active_installed {w : InfraFiles Tree} {pkg version : String} (hactive : w.active pkg = some version) :
    ∃ files, (w.versions pkg).get? version = some files :=
  PackageFiles.mem_layout_versions.mp (PackageDir.active_eq_some_iff.mp hactive).2

end

section

variable {Tree : Type} (digest : List Nat → String) (untar : List Nat → Tree) (base : String)

variable {digest untar base}

end

/-- In every sequence of installs whose copies do not fail, an installed version holds the whole content of a
tarball that matched for it, and each further install is done whole or not at all. -/
theorem install_all_or_nothing {Tree : Type} (digest : List Nat → String) (untar : List Nat → Tree) (base : String)
    (calls : List (InstallCall Tree)) (w : InfraFiles Tree)
    (halong : Along (installStep digest untar base) (CopiesWhole digest) {} calls)
    (hrun : run (installStep digest untar base) {} calls = some w) :
    Complete untar w ∧ (∀ pkg version, w.active pkg = some version → ∃ files, (w.versions pkg).get? version = some files) ∧
      ∀ call, CopiesWhole digest w call → AllOrNothing digest untar base w call := by
  have hkeep : ∀ (s : InfraFiles Tree) call next, Sound untar s → CopiesWhole digest s call →
      installStep digest untar base s call = some next → Sound untar next := by
    intro s call next h hwhole hstep
    cases hstep
    exact (h.call base hwhole).1
  have h : Sound untar w := run_invariant hkeep Sound.empty halong hrun
  exact ⟨h.complete, fun pkg version => InfraFiles.active_installed, fun call hwhole => (h.call base hwhole).2⟩

section

/-- A gzipped tar of the files `server` and `lib`. -/
def sampleTarball : List Nat :=
  [31, 139, 8, 0, 0, 0, 0, 0, 2, 3, 43, 78, 45, 42, 75, 45, 98, 160, 41, 48, 0, 2, 51, 19, 19, 48, 13, 4, 232, 52, 16,
    24, 33, 177, 65, 226, 230, 134, 102, 102, 12, 10, 6, 12, 116, 0, 165, 197, 37, 137, 69, 64, 43, 25, 70, 38, 80, 86,
    100, 24, 5, 35, 24, 228, 100, 38, 209, 220, 14, 194, 249, 223, 16, 45, 255, 155, 153, 24, 153, 142, 230, 127, 122,
    128, 138, 209, 44, 48, 10, 70, 193, 40, 24, 5, 35, 18, 0, 0, 172, 241, 72, 173, 0, 12, 0, 0]

def sampleDigest (bytes : List Nat) : String :=
  if bytes = sampleTarball then "58ca8f43646db1524268bb12bcf83e197065d8ea419cef3043580c06e6c4a128" else ""

def sampleUntar (bytes : List Nat) : List (String × String) :=
  if bytes = sampleTarball then [("server", "#!"), ("lib", "x")] else []

def sampleInstall (copy : Copy (List (String × String))) : InstallCall (List (String × String)) where
  options :=
    { pkg := "llama-cpp"
      version := "b4500"
      tarballUrl := "https://example.test/b4500.tar.gz"
      sha256 := "58CA8F43646DB1524268BB12BCF83E197065D8EA419CEF3043580C06E6C4A128" }
  answers := ⟨.ok sampleTarball, .ok (), copy⟩

theorem install_all_or_nothing_twice :
    ∃ w, run (installStep sampleDigest sampleUntar "/infra") {} [sampleInstall .copied, sampleInstall .copied] = some w ∧
      (w.versions "llama-cpp").get? "b4500" = some [("server", "#!"), ("lib", "x")] ∧ Complete sampleUntar w := by
  refine ⟨_, rfl, by decide +kernel, ?_⟩
  apply (install_all_or_nothing sampleDigest sampleUntar "/infra" [sampleInstall .copied, sampleInstall .copied] _ ?_ rfl).1
  refine ⟨⟨by decide, nofun⟩, fun _ _ => ⟨⟨by decide, nofun⟩, fun _ _ => trivial⟩⟩

/-- The copy runs out of space: the version is there with a part of its files, and the next install takes it for
installed and activates it. -/
theorem failed_copy_activated :
    let first := installCall sampleDigest sampleUntar "/infra" {}
      (sampleInstall (.failed 1 "cp: lib: No space left on device" [("server", "#!")]))
    let second := installCall sampleDigest sampleUntar "/infra" first.1 (sampleInstall .copied)
    first.2 = .failed .extractFailed "cp exited 1: cp: lib: No space left on device" ∧
      second.2 = .ok .alreadyPresent "/infra/llama-cpp/b4500" true ∧ second.1.active "llama-cpp" = some "b4500" ∧
      (second.1.versions "llama-cpp").get? "b4500" = some [("server", "#!")] ∧ ¬ Complete sampleUntar second.1 := by
  intro first second
  have hfiles : (second.1.versions "llama-cpp").get? "b4500" = some [("server", "#!")] := by decide +kernel
  refine ⟨by decide +kernel, by decide +kernel, by decide +kernel, hfiles, ?_⟩
  intro hcomplete
  obtain ⟨bytes, -, huntar⟩ := hcomplete _ _ _ hfiles
  unfold sampleUntar at huntar
  split at huntar <;> cases huntar

end

end llamactl.infra
