import Workbench.RealPaths
import Workbench.PyJson

namespace Workbench.Sandbox

open FileSystems PyJson

/-- `cwd` is the working directory, and `workspaceVar` what `WB_AGENT_WORKSPACE` is set to. -/
structure Environment where
  cwd : Path
  named : Slashless cwd
  workspaceVar : Option String

inductive SandboxError
  | valueError (message : String)
  | raised (error : PathError)
  deriving DecidableEq

def SandboxError.ofPath : PathError → SandboxError
  | .embeddedNull => .valueError "embedded null byte"
  | error => .raised error

def defaultWorkspace : String := "data/agent_workspace"

def configuredPath (env : Environment) : Path :=
  let configured := env.workspaceVar.getD defaultWorkspace
  start env.cwd configured ++ parts configured

def workspaceRoot (fs : FileSystem) (env : Environment) :
    Except SandboxError (FileSystem × PurePath) :=
  ((resolve fs (configuredPath env)).mapError .ofPath).bind fun root =>
    ((makeDirs fs root.names).mapError .ofPath).map fun made => (made, root)

def safeTarget (fs : FileSystem) (root : PurePath) (name : String) : Except SandboxError PurePath :=
  ((resolve fs (root.names ++ parts name)).mapError .ofPath).bind fun resolved =>
    if resolved ≠ root ∧ root ∉ resolved.parents then
      .error (.valueError ("path escapes the workspace sandbox: " ++ name))
    else ((realpath fs root.names).mapError .ofPath).bind fun realRoot =>
      ((realpath fs resolved.names).mapError .ofPath).bind fun realTarget =>
        if realTarget ≠ realRoot ∧ ¬realRoot.text ++ ['/'] <+: realTarget.text then
          .error (.valueError ("path escapes the workspace sandbox (symlink): " ++ name))
        else if islink fs resolved.names then
          .error (.valueError ("symlinks are not allowed in the workspace: " ++ name))
        else .ok resolved

def safePath (fs : FileSystem) (env : Environment) (name : String) :
    Except SandboxError (FileSystem × PurePath) :=
  if PyText.strip name = "" then .error (.valueError "filename is required")
  else if isAbsolute name then .error (.valueError ("absolute paths are not allowed: " ++ name))
  else (workspaceRoot fs env).bind fun (made, root) =>
    (safeTarget made root name).map fun path => (made, path)

def Inside (root path : PurePath) : Prop :=
  root.Beneath path ∧ (path = root ∨ root.text ++ ['/'] <+: path.text)

structure Admitted (fs : FileSystem) (root path : PurePath) : Prop where
  beneath : root.Beneath path
  real : ∃ realRoot realTarget, realpath fs root.names = .ok realRoot ∧
    realpath fs path.names = .ok realTarget ∧
      (realTarget = realRoot ∨ realRoot.text ++ ['/'] <+: realTarget.text)
  noLink : islink fs path.names = false

section Checks

variable {fs made : FileSystem} {env : Environment} {root path : PurePath} {name : String}

theorem safeTarget_ok : safeTarget fs root name = .ok path ↔
    resolve fs (root.names ++ parts name) = .ok path ∧ Admitted fs root path := by
  unfold safeTarget
  rw [bind_eq_ok]
  constructor
  · rintro ⟨resolved, hresolved, h⟩
    by_cases hescapes : resolved ≠ root ∧ root ∉ resolved.parents
    · rw [if_pos hescapes] at h
      cases h
    rw [if_neg hescapes] at h
    obtain ⟨realRoot, hrealRoot, h⟩ := bind_eq_ok.mp h
    obtain ⟨realTarget, hrealTarget, h⟩ := bind_eq_ok.mp h
    split_ifs at h with htext hlink
    cases h
    refine ⟨mapError_eq_ok.mp hresolved, not_not.mp fun h => hescapes (mem_parents.mpr h), ?_,
      (Bool.not_eq_true _).mp hlink⟩
    refine ⟨realRoot, realTarget, mapError_eq_ok.mp hrealRoot, mapError_eq_ok.mp hrealTarget, ?_⟩
    by_cases hsame : realTarget = realRoot
    · exact .inl hsame
    · exact .inr (not_not.mp fun houtside => htext ⟨hsame, houtside⟩)
  · rintro ⟨hresolved, hadmitted⟩
    obtain ⟨realRoot, realTarget, hrealRoot, hrealTarget, htext⟩ := hadmitted.real
    refine ⟨path, mapError_eq_ok.mpr hresolved, ?_⟩
    rw [if_neg fun hescapes => mem_parents.mp hescapes hadmitted.beneath]
    refine bind_eq_ok.mpr ⟨realRoot, mapError_eq_ok.mpr hrealRoot, ?_⟩
    refine bind_eq_ok.mpr ⟨realTarget, mapError_eq_ok.mpr hrealTarget, ?_⟩
    rw [if_neg, if_neg]
    · rw [hadmitted.noLink]
      exact Bool.false_ne_true
    · rintro ⟨hne, houtside⟩
      rcases htext with hsame | hbeneath
      · exact hne hsame
      · exact houtside hbeneath

theorem safePath_ok : safePath fs env name = .ok (made, path) ↔
    PyText.strip name ≠ "" ∧ isAbsolute name = false ∧
      ∃ root, workspaceRoot fs env = .ok (made, root) ∧
        resolve made (root.names ++ parts name) = .ok path ∧ Admitted made root path := by
  unfold safePath
  by_cases hblank : PyText.strip name = ""
  · simp [hblank]
  by_cases habsolute : isAbsolute name = true
  · simp [hblank, habsolute]
  rw [if_neg hblank, if_neg habsolute, bind_eq_ok]
  constructor
  · rintro ⟨⟨made', root⟩, hroot, h⟩
    obtain ⟨p, hp, h⟩ := map_eq_ok.mp h
    cases h
    exact ⟨hblank, Bool.not_eq_true _ ▸ habsolute, root, hroot, safeTarget_ok.mp hp⟩
  · rintro ⟨-, -, root, hroot, h⟩
    exact ⟨(made, root), hroot, map_eq_ok.mpr ⟨path, safeTarget_ok.mpr h, rfl⟩⟩

theorem admitted_iff {q : Path} (hq : Canonical fs q) :
    Admitted fs root ⟨false, q⟩ ↔ Inside root ⟨false, q⟩ := by
  have hself {p : Path} (hp : p <+: q) : realpath fs p = .ok ⟨false, p⟩ :=
    realpath_follow (followAll_canonical (hq.of_prefix hp))
  constructor
  · intro h
    refine ⟨h.beneath, ?_⟩
    obtain ⟨realRoot, realTarget, hrealRoot, hrealTarget, htext⟩ := h.real
    obtain ⟨hdoubled, hbeneath⟩ := h.beneath
    obtain ⟨doubled, names⟩ := root
    cases hdoubled
    rw [hself hbeneath] at hrealRoot
    rw [hself List.prefix_rfl] at hrealTarget
    cases hrealRoot
    cases hrealTarget
    exact htext
  · rintro ⟨⟨hdoubled, hbeneath⟩, htext⟩
    obtain ⟨doubled, names⟩ := root
    cases hdoubled
    exact ⟨⟨rfl, hbeneath⟩, ⟨_, _, hself hbeneath, hself List.prefix_rfl, htext⟩, islink_canonical hq⟩

end Checks

/-- Where all links that a name meets come to an end, its entry is none of them, or they end outside
the root. Where one is inside itself, what is left of the name is refused, or it meets no such link
and the entry is no link. -/
structure Harmless (fs : FileSystem) (root : PurePath) (name : String) : Prop where
  ended : ∀ q, followAll fs (root.names ++ parts name) = .ok q →
    islink fs (root.names ++ parts name) = true → ¬Inside root ⟨false, q⟩
  looped : ∀ error, followAll fs (root.names ++ parts name) = .error error →
    ∀ path, resolve fs (root.names ++ parts name) = .ok path → Admitted fs root path →
      islink fs (root.names ++ parts name) = false ∧ ∃ real, followAll fs path.names = .ok real

section Links

variable {fs : FileSystem} {root path : PurePath} {name : String}

end Links

section Sample

/-- Where a link is inside itself, the names after it are taken as they stand. -/
def loopedFiles : FileSystem where
  rows := [(["w"], .dir), (["w", "a"], .file), (["w", "loop"], .link "loop"),
    (["w", "l"], .link "loop/../a"), (["w", "k"], .link "loop/../l"),
    (["w", "x"], .link "missing/../loop/../b"), (["w", "y"], .link "loop/../x/c")]
  unique := by decide

example : safeTarget loopedFiles ⟨false, ["w"]⟩ "l" = .ok ⟨false, ["w", "a"]⟩ ∧
    safeTarget loopedFiles ⟨false, ["w"]⟩ "loop" = .error (.raised .loop) ∧
    safeTarget loopedFiles ⟨false, ["w"]⟩ "k" = .error (.raised .loop) ∧
    safeTarget loopedFiles ⟨false, ["w"]⟩ "y" = .ok ⟨false, ["w", "x", "c"]⟩ := by
  decide +kernel

end Sample

end Workbench.Sandbox
