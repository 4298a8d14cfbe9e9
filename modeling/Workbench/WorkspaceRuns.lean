import Workbench.FileWorkspace
import Workbench.LinkFrames

namespace Workbench.Sandbox

open FileSystems PyJson KeyedTable

def rootOf (fs : FileSystem) (env : Environment) : Except SandboxError PurePath :=
  (resolve fs (configuredPath env)).mapError .ofPath

/-- What may differ after tools were called: the directories that lead to the root, and what is
beneath it. -/
structure Confined (root : Path) (disk disk' : Disk) : Prop where
  links : SameLinks disk.fs disk'.fs
  stays : ∀ q, disk.fs.node q ≠ none → disk'.fs.node q = disk.fs.node q
  outside : ∀ q, ¬root <+: q → disk'.fs.node q = disk.fs.node q ∨
    q <+: root ∧ disk.fs.node q = none ∧ disk'.fs.node q = some .dir
  texts : ∀ q, ¬root <+: q → disk'.texts q = disk.texts q

namespace Confined

variable {root : Path} {disk disk' disk'' : Disk}

theorem refl (root : Path) (disk : Disk) : Confined root disk disk where
  links := SameLinks.refl disk.fs
  stays _ _ := rfl
  outside _ _ := .inl rfl
  texts _ _ := rfl

theorem trans (h : Confined root disk disk') (h' : Confined root disk' disk'') :
    Confined root disk disk'' where
  links := h.links.trans h'.links
  stays q hq := by
    have hstays := h.stays q hq
    rw [h'.stays q (by rw [hstays]; exact hq), hstays]
  outside q hq := by
    rcases h.outside q hq with hsame | ⟨hwithin, hnone, hdir⟩
    · rw [← hsame]
      exact h'.outside q hq
    · have hsome : disk'.fs.node q ≠ none := by
        rw [hdir]
        exact Option.some_ne_none _
      exact .inr ⟨hwithin, hnone, by rw [h'.stays q hsome, hdir]⟩
  texts q hq := (h'.texts q hq).trans (h.texts q hq)

theorem made {fs : FileSystem} {path beneath : Path} (hroot : root <+: beneath) (hpath : path <+: beneath)
    (h : Made disk.fs fs path) : Confined root disk { disk with fs } where
  links := h.links
  stays _ := h.stays
  outside q hq := by
    rcases h.node q with hsame | ⟨hwithin, hnone, hdir⟩
    · exact .inl hsame
    · rcases List.prefix_or_prefix_of_prefix (hwithin.trans hpath) hroot with h' | h'
      · exact .inr ⟨h', hnone, hdir⟩
      · exact absurd h' hq
  texts _ _ := rfl

theorem written {path : Path} {content : String} {after : Disk} (hroot : root <+: path)
    (hcanonical : Canonical disk.fs path) (h : writeText disk path content = .ok after) :
    Confined root disk after ∧ after.texts = Function.update disk.texts path content ∧
      after.fs.node path = some .file := by
  unfold writeText at h
  cases hlocate : locate disk.fs true path with
  | error e =>
    rw [hlocate] at h
    cases h
  | ok target =>
    have htarget : target = path := by
      rcases locate_canonical hcanonical hlocate with he | he | he
      · exact Except.ok.inj he
      · cases he
      · cases he
    rw [hlocate, htarget] at h
    simp only at h
    split_ifs at h with hdir
    cases h
    have hne : path ≠ [] := by
      rintro rfl
      exact hdir (node_root disk.fs)
    have hnot (q : Path) (hq : ¬root <+: q) : path ≠ q := by
      rintro rfl
      exact hq hroot
    refine ⟨⟨sameLinks_put hne rfl hcanonical.not_isLink, ?_, ?_, ?_⟩, rfl, ?_⟩
    · intro q hq
      rw [node_put hne]
      split_ifs with hpath
      · subst hpath
        cases hnode : disk.fs.node path with
        | none => exact absurd hnode hq
        | some node =>
          cases node with
          | dir => exact absurd hnode hdir
          | file => rfl
          | link target => exact absurd hnode (hcanonical.noLink path List.prefix_rfl target)
      · rfl
    · intro q hq
      rw [node_put hne, if_neg (hnot q hq)]
      exact .inl rfl
    · intro q hq
      exact Function.update_of_ne (hnot q hq).symm _ _
    · rw [node_put hne, if_pos rfl]

end Confined

section Root

variable {fs made : FileSystem} {env : Environment} {root : PurePath}

theorem rootOf_sameLinks {fs' : FileSystem} (h : SameLinks fs fs') (hfs : Unlooped fs) :
    rootOf fs' env = rootOf fs env := by
  unfold rootOf
  rw [h.resolve_eq hfs]

theorem canonical_rootOf (hfs : Unlooped fs) (h : rootOf fs env = .ok root) : Canonical fs root.names := by
  obtain ⟨q, rfl, hq⟩ := hfs.follow (mapError_eq_ok.mp h)
  exact canonical_followAll hq

theorem workspaceRoot_made (hfs : Unlooped fs) (h : workspaceRoot fs env = .ok (made, root)) :
    rootOf fs env = .ok root ∧ Made fs made root.names ∧ Leads made root.names := by
  obtain ⟨p, hp, h⟩ := bind_eq_ok.mp h
  obtain ⟨fs', hmade, h⟩ := map_eq_ok.mp h
  cases h
  exact ⟨hp, makeDirs_made (canonical_rootOf hfs hp) (mapError_eq_ok.mp hmade)⟩

theorem workspaceRoot_error {error : SandboxError} (h : rootOf fs env = .error error) :
    workspaceRoot fs env = .error error := by
  change (rootOf fs env).bind _ = _
  rw [h]
  rfl

theorem rooted_confined {disk : Disk} (hfs : Unlooped disk.fs) (h : rootOf disk.fs env = .ok root)
    (name : String) : Confined root.names disk { disk with fs := rooted disk.fs env name } := by
  unfold rooted
  split_ifs
  · exact Confined.refl root.names disk
  · cases hworkspace : workspaceRoot disk.fs env with
    | error error => exact Confined.refl root.names disk
    | ok result =>
      obtain ⟨hroot, hmade, -⟩ := workspaceRoot_made hfs hworkspace
      rw [h] at hroot
      cases hroot
      exact Confined.made List.prefix_rfl List.prefix_rfl hmade

theorem rooted_error {error : SandboxError} (h : rootOf fs env = .error error) (name : String) :
    rooted fs env name = fs := by
  unfold rooted
  rw [workspaceRoot_error h]
  split_ifs
  · rfl
  · rfl

end Root

section Calls

variable {env : Environment} {disk : Disk} {root : PurePath}

theorem safePath_beneath {made : FileSystem} {path : PurePath} {name : String} (hfs : Unlooped disk.fs)
    (h : rootOf disk.fs env = .ok root) (hsafe : safePath disk.fs env name = .ok (made, path)) :
    (Made disk.fs made root.names ∧ Leads made root.names) ∧
      resolve disk.fs (root.names ++ parts name) = .ok path ∧ Inside root path ∧
        Canonical made path.names := by
  obtain ⟨-, -, root', hworkspace, hresolve, hadmitted⟩ := safePath_ok.mp hsafe
  obtain ⟨hroot, hmade⟩ := workspaceRoot_made hfs hworkspace
  rw [h] at hroot
  cases hroot
  obtain ⟨q, rfl, hq⟩ := (hmade.1.links.unlooped hfs).follow hresolve
  have hcanonical := canonical_followAll hq
  rw [hmade.1.links.resolve_eq hfs] at hresolve
  exact ⟨hmade, hresolve, (admitted_iff hcanonical).mp hadmitted, hcanonical⟩

theorem Confined.leads {disk' : Disk} {root path : Path} (h : Confined root disk disk')
    (hleads : Leads disk.fs path) : Leads disk'.fs path := by
  intro p hp
  have hdir := hleads p hp
  rw [h.stays p (by rw [hdir]; exact Option.some_ne_none _), hdir]

structure Wrote (root : PurePath) (disk disk' : Disk) (name content : String) (path : PurePath) :
    Prop where
  resolved : resolve disk.fs (root.names ++ parts name) = .ok path
  inside : Inside root path
  texts : disk'.texts = Function.update disk.texts path.names content
  file : disk'.fs.node path.names = some .file
  leads : Leads disk'.fs root.names
  leadsUp : Leads disk'.fs path.names.dropLast

structure Writes (root : PurePath) (disk : Disk) (name content : String)
    (done : Disk × Except ToolError String) : Prop where
  confined : Confined root.names disk done.1
  one : done.1.texts = disk.texts ∧ (∀ text, done.2 ≠ .ok ("wrote " ++ text)) ∨
    ∃ path, Wrote root disk done.1 name content path

theorem not_wrote {said : String} (h : said.toList.head? ≠ some 'w') (text : String) :
    (Except.ok said : Except ToolError String) ≠ .ok ("wrote " ++ text) := by
  intro he
  apply h
  rw [Except.ok.inj he, String.toList_append]
  rfl

variable (disk) in
theorem refused_not_wrote (error : SandboxError) (text : String) :
    (refused disk error).2 ≠ .ok ("wrote " ++ text) := by
  cases error with
  | valueError message =>
    apply not_wrote
    rw [String.toList_append]
    exact fun h => by cases h
  | raised error => exact fun h => by cases h

theorem writeFile_writes (hfs : Unlooped disk.fs) (h : rootOf disk.fs env = .ok root)
    (name content : String) : Writes root disk name content (writeFile env disk name content) := by
  unfold writeFile
  split_ifs
  · exact ⟨Confined.refl root.names disk, .inl ⟨rfl, not_wrote (by decide +kernel)⟩⟩
  · split
    · rename_i error _
      have hnot := refused_not_wrote { disk with fs := rooted disk.fs env name } error
      have hconfined := rooted_confined hfs h name
      cases error with
      | valueError message => exact ⟨hconfined, .inl ⟨rfl, hnot⟩⟩
      | raised error => exact ⟨hconfined, .inl ⟨rfl, hnot⟩⟩
    · rename_i made path hsafe
      obtain ⟨⟨hmade, hleads⟩, hresolve, hinside, hcanonical⟩ := safePath_beneath hfs h hsafe
      have hbeneath := hinside.1.2
      have hfirst : Confined root.names disk { disk with fs := made } :=
        Confined.made hbeneath hbeneath hmade
      split
      · exact ⟨hfirst, .inl ⟨rfl, fun _ h => by cases h⟩⟩
      · rename_i dirs hdirs
        obtain ⟨hup, hleadsUp⟩ := makeDirs_made hcanonical.dropLast hdirs
        have hdirsMade : Confined root.names { disk with fs := made } { disk with fs := dirs } :=
          Confined.made hbeneath (List.dropLast_prefix path.names) hup
        have hsecond := hfirst.trans hdirsMade
        split
        · exact ⟨hsecond, .inl ⟨rfl, fun _ h => by cases h⟩⟩
        · rename_i written hwritten
          obtain ⟨hwrote, htexts, hfile⟩ :=
            Confined.written hbeneath (hup.links.canonical hcanonical) hwritten
          have hthird := hsecond.trans hwrote
          have hleads' : Leads written.fs root.names := (hdirsMade.trans hwrote).leads hleads
          have hleadsUp' : Leads written.fs path.names.dropLast := hwrote.leads hleadsUp
          split
          · exact ⟨hthird, .inr ⟨path, hresolve, hinside, htexts, hfile, hleads', hleadsUp'⟩⟩
          · rename_i again root' hagain
            obtain ⟨hroot, hmadeAgain, -⟩ := workspaceRoot_made (hthird.links.unlooped hfs) hagain
            rw [rootOf_sameLinks hthird.links hfs, h] at hroot
            cases hroot
            have hlast : Confined root.names written { written with fs := again } :=
              Confined.made List.prefix_rfl List.prefix_rfl hmadeAgain
            refine ⟨hthird.trans hlast, .inr ⟨path, hresolve, hinside, htexts, ?_,
              hlast.leads hleads', hlast.leads hleadsUp'⟩⟩
            exact (hlast.stays path.names (by rw [hfile]; exact Option.some_ne_none _)).trans hfile

theorem readFile_confined (hfs : Unlooped disk.fs) (h : rootOf disk.fs env = .ok root) (name : String) :
    Confined root.names disk (readFile env disk name).1 ∧
      (readFile env disk name).1.texts = disk.texts := by
  unfold readFile
  split
  · rename_i error _
    have hconfined := rooted_confined hfs h name
    cases error with
    | valueError message => exact ⟨hconfined, rfl⟩
    | raised error => exact ⟨hconfined, rfl⟩
  · rename_i made path hsafe
    obtain ⟨⟨hmade, -⟩, -, hinside, -⟩ := safePath_beneath hfs h hsafe
    exact ⟨Confined.made hinside.1.2 hinside.1.2 hmade, rfl⟩

theorem listFiles_confined (lib : WorkspaceLibrary) (hfs : Unlooped disk.fs)
    (h : rootOf disk.fs env = .ok root) :
    Confined root.names disk (listFiles lib env disk).1 ∧
      (listFiles lib env disk).1.texts = disk.texts := by
  unfold listFiles
  split
  · exact ⟨Confined.refl root.names disk, rfl⟩
  · rename_i made root' hworkspace
    obtain ⟨hroot, hmade, -⟩ := workspaceRoot_made hfs hworkspace
    rw [h] at hroot
    cases hroot
    exact ⟨Confined.made List.prefix_rfl List.prefix_rfl hmade, rfl⟩

theorem callTool_confined (lib : WorkspaceLibrary) (hfs : Unlooped disk.fs)
    (h : rootOf disk.fs env = .ok root) (call : ToolCall) :
    Confined root.names disk (callTool lib env disk call).1 := by
  cases call with
  | writeFile name content => exact (writeFile_writes hfs h name content).confined
  | readFile name => exact (readFile_confined hfs h name).1
  | listFiles => exact (listFiles_confined lib hfs h).1

theorem callTool_error (lib : WorkspaceLibrary) {error : SandboxError}
    (h : rootOf disk.fs env = .error error) (call : ToolCall) : (callTool lib env disk call).1 = disk := by
  have hworkspace := workspaceRoot_error h
  have hsafe (name : String) : ∃ e, safePath disk.fs env name = .error e := by
    unfold safePath
    rw [hworkspace]
    split_ifs
    · exact ⟨_, rfl⟩
    · exact ⟨_, rfl⟩
    · exact ⟨_, rfl⟩
  have hrefused (name : String) (e : SandboxError) :
      (refused { disk with fs := rooted disk.fs env name } e).1 = disk := by
    rw [rooted_error h]
    cases e with
    | valueError message => rfl
    | raised error => rfl
  cases call with
  | writeFile name content =>
    obtain ⟨e, he⟩ := hsafe name
    simp only [callTool, writeFile, he]
    split_ifs
    · rfl
    · exact hrefused name e
  | readFile name =>
    obtain ⟨e, he⟩ := hsafe name
    simp only [callTool, readFile, he]
    exact hrefused name e
  | listFiles => simp only [callTool, listFiles, hworkspace]

end Calls

section Runs

variable {lib : WorkspaceLibrary} {env : Environment}

theorem runTools_confined {disk : Disk} {root : PurePath} (hfs : Unlooped disk.fs)
    (h : rootOf disk.fs env = .ok root) (calls : List ToolCall) :
    Confined root.names disk (runTools lib env disk calls) := by
  unfold runTools
  induction calls generalizing disk with
  | nil => exact Confined.refl root.names disk
  | cons call calls ih =>
    have hcall := callTool_confined lib hfs h call
    have hroot : rootOf (callTool lib env disk call).1.fs env = .ok root :=
      (rootOf_sameLinks hcall.links hfs).trans h
    exact hcall.trans (ih (hcall.links.unlooped hfs) hroot)

theorem runTools_error {disk : Disk} {error : SandboxError} (h : rootOf disk.fs env = .error error)
    (calls : List ToolCall) : runTools lib env disk calls = disk := by
  unfold runTools
  induction calls with
  | nil => rfl
  | cons call calls ih =>
    rw [List.foldl_cons, callTool_error lib h]
    exact ih

/-- Whatever names and contents the agent's file tools are called with, in any number of calls, on a
disk where no link is inside itself: they touch nothing outside the workspace but the directories on
the way to it, and no name's kind ever changes. -/
theorem tools_confined (lib : WorkspaceLibrary) (env : Environment) (disk : Disk)
    (hfs : Unlooped disk.fs) (calls : List ToolCall) :
    (∀ error, rootOf disk.fs env = .error error → runTools lib env disk calls = disk) ∧
      ∀ root, rootOf disk.fs env = .ok root →
        Confined root.names disk (runTools lib env disk calls) :=
  ⟨fun _ h => runTools_error h calls, fun _ h => runTools_confined hfs h calls⟩

end Runs

section Sample

def linkedDisk : Disk where
  fs := {
    rows := [(["d"], .dir), (["d", "w"], .link "v"), (["d", "v"], .link "../srv"), (["srv"], .dir),
      (["srv", "a"], .dir), (["srv", "b"], .link "a/../a")]
    unique := by decide }
  texts _ := ""

def behindLinks : Environment := ⟨[], slashless_nil, some "/d/w"⟩

def plainLibrary : WorkspaceLibrary := ⟨fun names => ", ".intercalate names⟩

theorem linked_tools_confined : Confined ["srv"] linkedDisk (runTools plainLibrary behindLinks linkedDisk
    [.writeFile "b/note.md" "Hello\n", .readFile "../d/w", .listFiles]) :=
  (tools_confined plainLibrary behindLinks linkedDisk (unlooped_of_rows (by decide +kernel)) _).2
    ⟨false, ["srv"]⟩ (by decide +kernel)

end Sample

end Workbench.Sandbox
