import Llamactl.Collections.OrderedMap

open collections List

namespace llamactl.infra

/-- What stands at `<base>/<pkg>/current`. Links are relative, so the target is
the name of a version; a version of that name makes it a directory. -/
inductive CurrentEntry where
  | absent
  | link (target : String)
  | directory
  deriving DecidableEq

/-- `<base>/<pkg>/`: a directory for each installed version, and `current`. -/
structure PackageDir where
  versions : List String
  current : CurrentEntry
  nodup : versions.Nodup
  reserved : "current" ∉ versions

namespace PackageDir

def empty : PackageDir := ⟨[], .absent, nodup_nil, not_mem_nil⟩

/-- `resolveActiveVersion`: a link that names no installed version, or none, gives none. -/
def active (dir : PackageDir) : Option String :=
  match dir.current with
  | .link target => if target ∈ dir.versions then some target else none
  | _ => none

/-- `existsSync` at the path of a version; at `current` it follows the link. -/
def versionExists (dir : PackageDir) (version : String) : Bool :=
  if version = "current" then dir.current = .directory || dir.active.isSome
  else version ∈ dir.versions

/-- `mkdirSync` at the path of a version that does not exist there. -/
def makeVersion (dir : PackageDir) (path version : String) : Except String PackageDir :=
  if hreserved : version = "current" then
    match dir.current with
    | .link _ => .error s!"EEXIST: file already exists, mkdir '{path}'"
    | _ => .ok { dir with current := .directory }
  else if hknown : version ∈ dir.versions then .ok dir
  else
    .ok
      { dir with
        versions := dir.versions ++ [version]
        nodup := dir.nodup.append (nodup_singleton version) (by simpa using hknown)
        reserved := by simpa [dir.reserved] using fun h => hreserved h.symm }

def removeVersion (dir : PackageDir) (version : String) : PackageDir :=
  { dir with
    versions := dir.versions.filter (· ≠ version)
    nodup := dir.nodup.filter _
    reserved := fun hmem => dir.reserved (mem_of_mem_filter hmem) }

end PackageDir

/-- The infra directory of an agent host. -/
structure InfraDir where
  base : String
  packages : OrderedMap String PackageDir

def InfraDir.package? (infra : InfraDir) (pkg : String) : Option PackageDir := infra.packages.get? pkg

def InfraDir.setPackage (infra : InfraDir) (pkg : String) : Option PackageDir → InfraDir
  | some dir => { infra with packages := infra.packages.set pkg dir }
  | none => { infra with packages := infra.packages.erase pkg }

theorem InfraDir.package?_setPackage (infra : InfraDir) (pkg : String) (dir? : Option PackageDir) (other : String) :
    (infra.setPackage pkg dir?).package? other = if other = pkg then dir? else infra.package? other := by
  cases dir? with
  | none => exact infra.packages.get?_erase pkg other
  | some dir => exact infra.packages.get?_set pkg other dir

@[simp] theorem InfraDir.setPackage_base (infra : InfraDir) (pkg : String) (dir? : Option PackageDir) :
    (infra.setPackage pkg dir?).base = infra.base := by
  cases dir? <;> rfl

structure InstalledInfra where
  pkg : String
  versions : List String
  active : Option String
  deriving DecidableEq

def listInstalledInfra (infra : InfraDir) : List InstalledInfra :=
  infra.packages.entries.map fun (pkg, dir) => { pkg, versions := dir.versions, active := dir.active }

def infraVersionDir (base pkg version : String) : String := s!"{base}/{pkg}/{version}"

/-- Point `current` at a version. The new link is renamed over the old entry, which
fails on a directory. -/
def activateInfraVersion (base pkg version : String) (dir : PackageDir) : Except String PackageDir :=
  if dir.versionExists version = false then
    .error s!"activateInfraVersion: {pkg}@{version} not installed at {infraVersionDir base pkg version}"
  else
    match dir.current with
    | .directory => .error s!"EISDIR: illegal operation on a directory, rename '{base}/{pkg}/current'"
    | _ => .ok { dir with current := .link version }

/-- A failed call: the agent reports the failure as its result, or the call throws. -/
structure Failure where
  message : String
  thrown : Bool := true
  deriving DecidableEq

/-- Where a call to the agent goes wrong: before it has an effect, with the package
directory made, with the version's files in place, or after its work is done and only
the answer is lost. -/
inductive Fault where
  | none
  | refused (failure : Failure)
  | prepared (failure : Failure)
  | extracted (failure : Failure)
  | unanswered (failure : Failure)
  deriving DecidableEq

namespace Fault

def answer : Fault → Except Failure Unit
  | .none => .ok ()
  | .refused failure => .error failure
  | .prepared failure => .error failure
  | .extracted failure => .error failure
  | .unanswered failure => .error failure

/-- The call does all its work. -/
def takesEffect : Fault → Bool
  | .none => true
  | .unanswered _ => true
  | _ => false

end Fault

/-- Flip the link of a package, and answer unless the call is at fault. -/
def activateCall (base pkg version : String) (fault : Fault) (dir : PackageDir) :
    Option PackageDir × Except Failure Unit :=
  if fault.takesEffect then
    match activateInfraVersion base pkg version dir with
    | .error message => (some dir, .error { message })
    | .ok next => (some next, fault.answer)
  else (some dir, fault.answer)

/-- Install with `activate` and `skipIfPresent`. -/
def installInfraPackage (base pkg version : String) (fault : Fault) (dir? : Option PackageDir) :
    Option PackageDir × Except Failure Unit :=
  match fault with
  | .refused failure => (dir?, .error failure)
  | _ =>
    let dir := dir?.getD PackageDir.empty
    if dir.versionExists version then activateCall base pkg version fault dir
    else
      match fault with
      | .prepared failure => (some dir, .error failure)
      | _ =>
        match dir.makeVersion (infraVersionDir base pkg version) version with
        | .error message => (some dir, .error { message })
        | .ok extracted => activateCall base pkg version fault extracted

/-- `infraActivate` -/
def activateInfra (base pkg version : String) (fault : Fault) (dir? : Option PackageDir) :
    Option PackageDir × Except Failure Unit :=
  match dir? with
  | none =>
    (none, if fault.takesEffect then
        .error { message := s!"activateInfraVersion: {pkg}@{version} not installed at {infraVersionDir base pkg version}" }
      else fault.answer)
  | some dir => activateCall base pkg version fault dir

/-- `infraUninstall` of one version: the link is left alone, also when it named that
version. -/
def removeInfraVersion (version : String) (fault : Fault) (dir? : Option PackageDir) :
    Option PackageDir × Except Failure Unit :=
  (if fault.takesEffect then dir?.map (·.removeVersion version) else dir?, fault.answer)

def removeInfraPackage (fault : Fault) (dir? : Option PackageDir) :
    Option PackageDir × Except Failure Unit :=
  (if fault.takesEffect then none else dir?, fault.answer)

@[simp] theorem Fault.answer_eq_ok_iff {fault : Fault} : fault.answer = .ok () ↔ fault = .none := by
  cases fault <;> simp [Fault.answer]

variable {dir : PackageDir} {version : String}

theorem PackageDir.active_eq_some_iff :
    dir.active = some version ↔ dir.current = .link version ∧ version ∈ dir.versions := by
  unfold PackageDir.active
  split
  · rename_i target hlink
    constructor
    · intro hactive
      obtain ⟨hmem, hsame⟩ := Option.ite_none_right_eq_some.mp hactive
      cases hsame
      exact ⟨hlink, hmem⟩
    rintro ⟨hcurrent, hmem⟩
    rw [hlink] at hcurrent
    cases hcurrent
    exact if_pos hmem
  · rename_i hno
    exact ⟨fun h => (nomatch h), fun ⟨hlink, _⟩ => absurd hlink (hno version)⟩

theorem PackageDir.ne_current_of_mem (hmem : version ∈ dir.versions) :
    version ≠ "current" := fun h => dir.reserved (h ▸ hmem)

theorem PackageDir.versionExists_of_mem (hmem : version ∈ dir.versions) :
    dir.versionExists version = true := by
  unfold versionExists
  rw [if_neg (ne_current_of_mem hmem)]
  exact decide_eq_true hmem

/-- What a call that makes a version current leaves of a package. -/
structure Converged (version : String) (fault : Fault) (dir after : PackageDir) : Prop where
  current : after.current = if fault.takesEffect then .link version else dir.current
  keeps : ∀ v ∈ dir.versions, v ∈ after.versions
  only : ∀ v ∈ after.versions, v ∈ dir.versions ∨ v = version
  installed : fault.takesEffect = true → version ≠ "current" → version ∈ after.versions

theorem activateInfraVersion_ok (base pkg : String)
    (hentry : dir.current ≠ .directory) (hexists : dir.versionExists version = true) :
    activateInfraVersion base pkg version dir = .ok { dir with current := .link version } := by
  unfold activateInfraVersion
  rw [hexists, if_neg (by decide)]
  split
  · rename_i hcurrent
    exact absurd hcurrent hentry
  · rfl

theorem activateInfraVersion_directory (base pkg version : String) (hentry : dir.current = .directory) :
    ∃ message, activateInfraVersion base pkg version dir = .error message := by
  unfold activateInfraVersion
  rw [hentry]
  split <;> exact ⟨_, rfl⟩

theorem activateCall_spec (base pkg : String) (fault : Fault)
    (hentry : dir.current ≠ .directory) (hexists : dir.versionExists version = true) :
    ∃ after, activateCall base pkg version fault dir = (some after, fault.answer) ∧
      after.versions = dir.versions ∧
      after.current = if fault.takesEffect then .link version else dir.current := by
  unfold activateCall
  rw [activateInfraVersion_ok base pkg hentry hexists]
  cases fault.takesEffect with
  | false => exact ⟨dir, rfl, rfl, rfl⟩
  | true => exact ⟨_, rfl, rfl, rfl⟩

theorem activateCall_directory (base pkg version : String) (fault : Fault)
    (hentry : dir.current = .directory) : (activateCall base pkg version fault dir).2 ≠ .ok () := by
  obtain ⟨message, herror⟩ := activateInfraVersion_directory base pkg version hentry
  unfold activateCall
  rw [herror]
  cases fault <;> simp [Fault.takesEffect, Fault.answer]

theorem makeVersion_spec (dir : PackageDir) (path : String) (hversion : version ≠ "current") :
    ∃ after, dir.makeVersion path version = .ok after ∧ after.current = dir.current ∧
      ∀ v, v ∈ after.versions ↔ v ∈ dir.versions ∨ v = version := by
  unfold PackageDir.makeVersion
  rw [dif_neg hversion]
  split
  · rename_i hknown
    exact ⟨dir, rfl, rfl, fun v => ⟨.inl, fun h => h.elim id fun h => h ▸ hknown⟩⟩
  · exact ⟨_, rfl, rfl, fun v => by simp⟩

theorem installInfraPackage_spec (base pkg : String) (fault : Fault)
    (dir? : Option PackageDir) (hentry : (dir?.getD .empty).current ≠ .directory)
    (hversion : version ≠ "current" ∨ (dir?.getD .empty).active.isSome) :
    ∃ after?, installInfraPackage base pkg version fault dir? = (after?, fault.answer) ∧
      (after?.isSome = true ∨ after? = dir? ∧ fault.takesEffect = false) ∧
      Converged version fault (dir?.getD .empty) (after?.getD .empty) := by
  generalize hdir : dir?.getD .empty = dir at hentry hversion ⊢
  have hstays : ∀ {fault : Fault}, fault.takesEffect = false → Converged version fault dir dir :=
    fun {fault} hnone =>
      { current := by rw [hnone]; rfl
        keeps := fun v hv => hv
        only := fun v hv => .inl hv
        installed := fun htakes => by rw [hnone] at htakes; cases htakes }
  by_cases hexists : dir.versionExists version = true
  · -- the link may already name what `current` would resolve to
    have hcall : ∀ fault : Fault, ∃ after, activateCall base pkg version fault dir = (some after, fault.answer) ∧
        Converged version fault dir after := by
      intro fault
      obtain ⟨after, hcall, hversions, hcurrent⟩ := activateCall_spec base pkg fault hentry hexists
      refine ⟨after, hcall, hcurrent, ?_, ?_, ?_⟩
      · exact fun v hv => hversions ▸ hv
      · exact fun v hv => .inl (hversions ▸ hv)
      intro _ hne
      unfold PackageDir.versionExists at hexists
      rw [if_neg hne] at hexists
      exact hversions ▸ of_decide_eq_true hexists
    unfold installInfraPackage
    rw [hdir]
    obtain ⟨after, hafter, hconverged⟩ := hcall fault
    cases fault with
    | refused failure => exact ⟨dir?, rfl, .inr ⟨rfl, rfl⟩, by rw [hdir]; exact hstays rfl⟩
    | _ =>
      dsimp only
      rw [if_pos hexists]
      exact ⟨some after, hafter, .inl rfl, hconverged⟩
  have hne : version ≠ "current" := by
    rintro rfl
    refine hexists ?_
    unfold PackageDir.versionExists
    rw [if_pos rfl, hversion.resolve_left (fun h => h rfl), Bool.or_true]
  obtain ⟨made, hmade, hcurrent, hversions⟩ := makeVersion_spec dir (infraVersionDir base pkg version) hne
  have hin : version ∈ made.versions := (hversions version).mpr (.inr rfl)
  have hcall : ∀ fault : Fault, ∃ after, activateCall base pkg version fault made = (some after, fault.answer) ∧
      Converged version fault dir after := by
    intro fault
    obtain ⟨after, hcall, hsame, hafter⟩ := activateCall_spec base pkg fault (hcurrent ▸ hentry)
      (PackageDir.versionExists_of_mem hin)
    refine ⟨after, hcall, hcurrent ▸ hafter, ?_, ?_, ?_⟩
    · exact fun v hv => hsame ▸ (hversions v).mpr (.inl hv)
    · exact fun v hv => (hversions v).mp (hsame ▸ hv)
    · exact fun _ _ => hsame ▸ hin
  unfold installInfraPackage
  rw [hdir]
  obtain ⟨after, hafter, hconverged⟩ := hcall fault
  cases fault with
  | refused failure => exact ⟨dir?, rfl, .inr ⟨rfl, rfl⟩, by rw [hdir]; exact hstays rfl⟩
  | prepared failure =>
    dsimp only
    rw [if_neg hexists]
    exact ⟨some dir, rfl, .inl rfl, hstays rfl⟩
  | _ =>
    dsimp only
    rw [if_neg hexists, hmade]
    exact ⟨some after, hafter, .inl rfl, hconverged⟩

/-- Nothing can be activated where `current` is a directory. -/
theorem installInfraPackage_directory (base pkg version : String) (fault : Fault) (dir? : Option PackageDir)
    (hentry : (dir?.getD .empty).current = .directory) :
    (installInfraPackage base pkg version fault dir?).2 ≠ .ok () := by
  unfold installInfraPackage
  have hmade : ∀ made, (dir?.getD .empty).makeVersion (infraVersionDir base pkg version) version = .ok made →
      made.current = .directory := by
    intro made hmade
    unfold PackageDir.makeVersion at hmade
    split at hmade
    · rw [hentry] at hmade
      cases hmade
      rfl
    · split at hmade <;> cases hmade <;> exact hentry
  cases fault with
  | refused failure => simp
  | _ =>
    dsimp only
    split
    · exact activateCall_directory base pkg version _ hentry
    first
    | simp
      done
    | split
      · simp
      · rename_i made hok
        exact activateCall_directory base pkg version _ (hmade made hok)

end llamactl.infra
