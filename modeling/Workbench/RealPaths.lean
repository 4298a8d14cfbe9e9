import Workbench.FileSystems
import Mathlib.Data.List.Perm.Subperm

namespace Workbench.FileSystems

open KeyedTable

def joinText (path rest : List Char) : List Char :=
  if rest.head? = some '/' then rest
  else if path = [] ∨ path.getLast? = some '/' then path ++ rest
  else path ++ '/' :: rest

def unsplit (names : List String) : List Char := ['/'].intercalate (names.map String.toList)

/-- `os.path.normpath` of an absolute path, where two slashes in front stay two -/
def normpath (text : List Char) : PurePath where
  doubled := ['/', '/'] <+: text ∧ ¬['/', '/', '/'] <+: text
  names := (partsOf text).foldl
    (fun names name => if name = ".." then names.dropLast else names ++ [name]) []

/-- `looped` is the text that is left when a link was met inside itself. -/
inductive Resolution
  | resolved (path : Path)
  | looped (text : List Char)
  deriving DecidableEq

namespace Resolution

def onward (rest : List String) (next : Path → Except PathError Resolution) :
    Resolution → Except PathError Resolution
  | resolved path => next path
  | looped text => .ok (looped (joinText text (unsplit rest)))

def path : Resolution → PurePath
  | resolved names => ⟨false, names⟩
  | looped text => normpath text

end Resolution

section Realpath

variable (fs : FileSystem)

/-- `_joinrealpath`, where `opened` are the links being followed. That a link followed to its end is
remembered makes no difference. -/
def joinRealWith (opened : List Path)
    (expand : List Path → Path → List String → Except PathError Resolution) :
    Path → List String → Except PathError Resolution
  | path, [] => .ok (.resolved path)
  | path, name :: rest =>
    if isHere name then joinRealWith opened expand path rest
    else if name = ".." then joinRealWith opened expand path.dropLast rest
    else if hasNull name then .error .embeddedNull
    else match fs.node (path ++ [name]) with
      | some (.link target) =>
        if path ++ [name] ∈ opened then
          .ok (.looped (joinText (Path.text (path ++ [name])) (unsplit rest)))
        else
          (expand ((path ++ [name]) :: opened) (start path target) (segments target.toList)).bind
            (Resolution.onward rest fun p => joinRealWith opened expand p rest)
      | _ => joinRealWith opened expand (path ++ [name]) rest

/-- Links inside one another, at most so many: `joinReal_error` has that all of them will do. -/
def joinReal : ℕ → List Path → Path → List String → Except PathError Resolution
  | 0, opened => joinRealWith fs opened fun _ _ _ => .error .loop
  | depth + 1, opened => joinRealWith fs opened (joinReal depth)

def realpath (names : List String) : Except PathError PurePath :=
  (joinReal fs fs.links [] [] names).map Resolution.path

/-- `Path.resolve`, which lets `stat` find the loops. -/
def resolve (names : List String) : Except PathError PurePath :=
  (realpath fs names).bind fun path =>
    match stat fs path.names with
    | .error .loop => .error .loop
    | .error .embeddedNull => .error .embeddedNull
    | _ => .ok path

end Realpath

section Names

variable {fs : FileSystem} {opened : List Path}
  {expand : List Path → Path → List String → Except PathError Resolution} {path q : Path}
  {name : String} {rest : List String}

theorem joinRealWith_here (h : isHere name = true) :
    joinRealWith fs opened expand path (name :: rest) = joinRealWith fs opened expand path rest := by
  rw [joinRealWith, if_pos h]

theorem joinRealWith_up (h : isHere name = false) (hup : name = "..") :
    joinRealWith fs opened expand path (name :: rest) =
      joinRealWith fs opened expand path.dropLast rest := by
  rw [joinRealWith, h, if_neg Bool.false_ne_true, if_pos hup]

theorem joinRealWith_null (hname : isHere name = false ∧ name ≠ ".." ∧ hasNull name = true) :
    joinRealWith fs opened expand path (name :: rest) = .error .embeddedNull := by
  rw [joinRealWith, hname.1, if_neg Bool.false_ne_true, if_neg hname.2.1, if_pos hname.2.2]

theorem joinRealWith_link {target : String}
    (hname : isHere name = false ∧ name ≠ ".." ∧ hasNull name = false)
    (h : fs.node (path ++ [name]) = some (.link target)) :
    joinRealWith fs opened expand path (name :: rest) =
      if path ++ [name] ∈ opened then
        .ok (.looped (joinText (Path.text (path ++ [name])) (unsplit rest)))
      else
        (expand ((path ++ [name]) :: opened) (start path target) (segments target.toList)).bind
          (Resolution.onward rest fun p => joinRealWith fs opened expand p rest) := by
  rw [joinRealWith, hname.1, hname.2.2, if_neg Bool.false_ne_true, if_neg hname.2.1,
    if_neg Bool.false_ne_true, h]

theorem joinRealWith_on (hname : isHere name = false ∧ name ≠ ".." ∧ hasNull name = false)
    (h : ∀ target, fs.node (path ++ [name]) ≠ some (.link target)) :
    joinRealWith fs opened expand path (name :: rest) =
      joinRealWith fs opened expand (path ++ [name]) rest := by
  rw [joinRealWith, hname.1, hname.2.2, if_neg Bool.false_ne_true, if_neg hname.2.1,
    if_neg Bool.false_ne_true]
  cases hnode : fs.node (path ++ [name]) with
  | none => rfl
  | some node =>
    cases node with
    | dir => rfl
    | file => rfl
    | link target => exact absurd hnode (h target)

end Names

section Agreement

variable {fs : FileSystem} {opened : List Path} {path q : Path} {names : List String}

theorem joinRealWith_follow {expand : Path → List String → Except PathError Path}
    {expand' : List Path → Path → List String → Except PathError Resolution}
    (hlink : ∀ {path name target p}, fs.node (path ++ [name]) = some (.link target) →
      expand (start path target) (segments target.toList) = .ok p →
        path ++ [name] ∉ opened ∧ expand' ((path ++ [name]) :: opened) (start path target)
          (segments target.toList) = .ok (.resolved p))
    (h : followWith fs expand path names = .ok q) :
    joinRealWith fs opened expand' path names = .ok (.resolved q) := by
  induction names generalizing path with
  | nil =>
    cases h
    rfl
  | cons name rest ih =>
    rcases followWith_cons h with
      ⟨hhere, hon⟩ | ⟨hhere, hup, hon⟩ | ⟨hname, ⟨target, p, hnode, hp, hon⟩ | ⟨hnode, hon⟩⟩
    · rw [joinRealWith_here hhere]
      exact ih hon
    · rw [joinRealWith_up hhere hup]
      exact ih hon
    · obtain ⟨hnot, hp'⟩ := hlink hnode hp
      rw [joinRealWith_link hname hnode, if_neg hnot, hp']
      exact ih hon
    · rw [joinRealWith_on hname hnode]
      exact ih hon

theorem least_follow {depth : ℕ} (h : follow fs depth path names = .ok q) :
    ∃ least, least ≤ depth ∧ follow fs least path names = .ok q ∧
      ∀ k < least, ∀ p, follow fs k path names ≠ .ok p := by
  induction depth with
  | zero => exact ⟨0, Nat.le_refl 0, h, fun k hk => absurd hk (Nat.not_lt_zero k)⟩
  | succ depth ih =>
    by_cases hbelow : ∃ p, follow fs depth path names = .ok p
    · obtain ⟨p, hp⟩ := hbelow
      have hsame := follow_succ hp
      rw [h] at hsame
      cases hsame
      obtain ⟨least, hle, hleast⟩ := ih hp
      exact ⟨least, by omega, hleast⟩
    · refine ⟨depth + 1, Nat.le_refl _, h, ?_⟩
      intro k hk p hp
      exact hbelow ⟨p, follow_mono (by omega) hp⟩

def Endless (fs : FileSystem) (depth : ℕ) (opened : List Path) : Prop :=
  ∀ link ∈ opened, ∀ k < depth, ∀ target, fs.node link = some (.link target) →
    ∀ q, follow fs k (start link.dropLast target) (segments target.toList) ≠ .ok q

/-- A path that comes to an end has no link inside itself. The induction is on the least depth at
which a link comes to its end, where the link itself cannot be met again. -/
theorem joinReal_follow {depth limit : ℕ} (hlimit : depth ≤ limit) (hopened : Endless fs depth opened)
    (h : follow fs depth path names = .ok q) :
    joinReal fs limit opened path names = .ok (.resolved q) := by
  induction depth using Nat.strong_induction_on generalizing limit opened path names q with
  | _ depth ih =>
    cases depth with
    | zero =>
      have hnone {expand' : List Path → Path → List String → Except PathError Resolution} :
          joinRealWith fs opened expand' path names = .ok (.resolved q) := by
        apply joinRealWith_follow _ h
        intro path name target p _ hloop
        cases hloop
      cases limit with
      | zero => exact hnone
      | succ limit => exact hnone
    | succ depth =>
      cases limit with
      | zero => omega
      | succ limit =>
        apply joinRealWith_follow _ h
        intro path name target p hnode hp
        have hlast : (path ++ [name]).dropLast = path := List.dropLast_concat
        constructor
        · intro hmem
          apply hopened _ hmem depth (Nat.lt_succ_self depth) target hnode p
          rw [hlast]
          exact hp
        · obtain ⟨least, hle, hp', hleast⟩ := least_follow hp
          apply ih least (by omega) (by omega) _ hp'
          intro link hmem k hk target' hlink q' hq'
          rcases List.mem_cons.mp hmem with rfl | hmem
          · rw [hnode] at hlink
            cases hlink
            rw [hlast] at hq'
            exact hleast k hk q' hq'
          · exact hopened link hmem k (by omega) target' hlink q' hq'

theorem joinRealWith_resolved {expand : Path → List String → Except PathError Path}
    {expand' : List Path → Path → List String → Except PathError Resolution}
    (hexpand : ∀ {opened path names p}, expand' opened path names = .ok (.resolved p) →
      expand path names = .ok p)
    (h : joinRealWith fs opened expand' path names = .ok (.resolved q)) :
    followWith fs expand path names = .ok q := by
  induction names generalizing path with
  | nil =>
    cases h
    rfl
  | cons name rest ih =>
    rcases name_cases fs path name with hhere | ⟨hhere, hup⟩ | hnull | ⟨hname, ⟨target, hnode⟩ | hnode⟩
    · rw [joinRealWith_here hhere] at h
      rw [followWith_here hhere]
      exact ih h
    · rw [joinRealWith_up hhere hup] at h
      rw [followWith_up hhere hup]
      exact ih h
    · rw [joinRealWith_null hnull] at h
      cases h
    · rw [joinRealWith_link hname hnode] at h
      by_cases hmem : path ++ [name] ∈ opened
      · rw [if_pos hmem] at h
        cases h
      rw [if_neg hmem] at h
      cases hp : expand' ((path ++ [name]) :: opened) (start path target) (segments target.toList) with
      | error e =>
        rw [hp] at h
        cases h
      | ok resolution =>
        rw [hp] at h
        cases resolution with
        | looped text => cases h
        | resolved p =>
          rw [followWith_link hname hnode, hexpand hp]
          exact ih h
    · rw [joinRealWith_on hname hnode] at h
      rw [followWith_on hname hnode]
      exact ih h

theorem joinReal_resolved {depth : ℕ} (h : joinReal fs depth opened path names = .ok (.resolved q)) :
    follow fs depth path names = .ok q := by
  induction depth generalizing opened path names q with
  | zero =>
    apply joinRealWith_resolved _ h
    intro opened path names p hloop
    cases hloop
  | succ depth ih => exact joinRealWith_resolved ih h

theorem joinReal_iff : joinReal fs fs.links [] [] names = .ok (.resolved q) ↔
    followAll fs names = .ok q := by
  constructor
  · exact joinReal_resolved
  · apply joinReal_follow (Nat.le_refl _)
    intro link hlink
    cases hlink

theorem realpath_follow (h : followAll fs names = .ok q) : realpath fs names = .ok ⟨false, q⟩ := by
  unfold realpath
  rw [joinReal_iff.mpr h]
  rfl

theorem resolve_follow (h : followAll fs names = .ok q) : resolve fs names = .ok ⟨false, q⟩ := by
  unfold resolve
  rw [realpath_follow h]
  simp only [Except.bind]
  cases hstat : stat fs q with
  | ok p => rfl
  | error error =>
    rcases locate_canonical (canonical_followAll h) hstat with he | he | he
    · cases he
    · cases he
      rfl
    · cases he
      rfl

end Agreement

section Unlooped

variable {fs : FileSystem} {names : List String}

def Unlooped (fs : FileSystem) : Prop :=
  ∀ names text, joinReal fs fs.links [] [] names ≠ .ok (.looped text)

theorem Unlooped.follow (h : Unlooped fs) {path : PurePath} (hpath : resolve fs names = .ok path) :
    ∃ q, path = ⟨false, q⟩ ∧ followAll fs names = .ok q := by
  unfold resolve realpath at hpath
  cases hreal : joinReal fs fs.links [] [] names with
  | error e =>
    rw [hreal] at hpath
    cases hpath
  | ok resolution =>
    cases resolution with
    | looped text => exact absurd hreal (h names text)
    | resolved q =>
      have hq := joinReal_iff.mp hreal
      change resolve fs names = .ok path at hpath
      rw [resolve_follow hq] at hpath
      exact ⟨q, (Except.ok.inj hpath).symm, hq⟩

theorem joinRealWith_unlooped {opened : List Path}
    {expand : List Path → Path → List String → Except PathError Resolution}
    (hlink : ∀ {path name target}, fs.node (path ++ [name]) = some (.link target) →
      path ++ [name] ∉ opened ∧ ∃ p, expand ((path ++ [name]) :: opened) (start path target)
        (segments target.toList) = .ok (.resolved p)) {path : Path} {text : List Char} :
    joinRealWith fs opened expand path names ≠ .ok (.looped text) := by
  induction names generalizing path with
  | nil => exact fun h => by cases h
  | cons name rest ih =>
    rcases name_cases fs path name with hhere | ⟨hhere, hup⟩ | hnull | ⟨hname, ⟨target, hnode⟩ | hnode⟩
    · rw [joinRealWith_here hhere]
      exact ih
    · rw [joinRealWith_up hhere hup]
      exact ih
    · rw [joinRealWith_null hnull]
      exact fun h => by cases h
    · obtain ⟨hnot, p, hp⟩ := hlink hnode
      rw [joinRealWith_link hname hnode, if_neg hnot, hp]
      exact ih
    · rw [joinRealWith_on hname hnode]
      exact ih

theorem unlooped_of_links (h : ∀ path name target, fs.node (path ++ [name]) = some (.link target) →
    ∃ depth p, depth < fs.links ∧ follow fs depth (start path target) (segments target.toList) = .ok p) :
    Unlooped fs := by
  intro names text
  cases hlinks : fs.links with
  | zero =>
    apply joinRealWith_unlooped
    intro path name target hnode
    obtain ⟨depth, p, hdepth, -⟩ := h path name target hnode
    omega
  | succ limit =>
    apply joinRealWith_unlooped
    intro path name target hnode
    obtain ⟨depth, p, hdepth, hp⟩ := h path name target hnode
    obtain ⟨least, hle, hp', hleast⟩ := least_follow hp
    refine ⟨List.not_mem_nil, p, joinReal_follow (by omega) ?_ hp'⟩
    intro link hmem k hk target' hlink q hq
    rw [List.mem_singleton.mp hmem] at hlink hq
    rw [hnode] at hlink
    cases hlink
    rw [List.dropLast_concat] at hq
    exact hleast k hk q hq

def linkEnds (fs : FileSystem) (entry : Path × Node) : Bool :=
  match entry.2 with
  | .link target => (follow fs (fs.links - 1) (start entry.1.dropLast target)
      (segments target.toList)).toOption.isSome
  | _ => true

theorem unlooped_of_rows (h : fs.rows.all (linkEnds fs) = true) : Unlooped fs := by
  apply unlooped_of_links
  intro path name target hnode
  obtain ⟨entry, hentry, hlink⟩ := Option.map_eq_some_iff.mp
    ((if_neg (List.append_ne_nil_of_right_ne_nil path (List.cons_ne_nil name []))).symm.trans hnode)
  have hmem := Table.mem_of_get hentry
  have hkey : entry.1 = path ++ [name] := Table.key_of_get hentry
  have hends := List.all_eq_true.mp h entry hmem
  unfold linkEnds at hends
  rw [hlink, hkey, List.dropLast_concat] at hends
  obtain ⟨p, hp⟩ := Option.isSome_iff_exists.mp hends
  refine ⟨fs.links - 1, p, ?_, ?_⟩
  · have hpos : 0 < fs.links := List.countP_pos_iff.mpr ⟨entry, hmem, by rw [hlink]; rfl⟩
    omega
  · cases hfollow : follow fs (fs.links - 1) (start path target) (segments target.toList) with
    | error e =>
      rw [hfollow] at hp
      cases hp
    | ok q =>
      rw [hfollow] at hp
      cases hp
      rfl

end Unlooped

section Enough

variable {fs : FileSystem} {opened : List Path} {path : Path} {names : List String}

def linkPaths (fs : FileSystem) : List Path :=
  (fs.rows.filter fun entry => isLink entry.2).map Prod.fst

theorem mem_linkPaths {target : String} (h : fs.node path = some (.link target)) :
    path ∈ linkPaths fs := by
  unfold FileSystem.node at h
  split_ifs at h
  · cases h
  · obtain ⟨found, hfound, hlink⟩ := Option.map_eq_some_iff.mp h
    apply List.mem_map.mpr
    refine ⟨found, List.mem_filter.mpr ⟨Table.mem_of_get hfound, ?_⟩, Table.key_of_get hfound⟩
    rw [hlink]
    rfl

structure Open (fs : FileSystem) (opened : List Path) : Prop where
  nodup : opened.Nodup
  links : ∀ link ∈ opened, link ∈ linkPaths fs

theorem Open.length_le (h : Open fs opened) : opened.length ≤ fs.links := by
  have hle := (List.subperm_of_subset h.nodup h.links).length_le
  unfold linkPaths at hle
  rw [List.length_map] at hle
  unfold FileSystem.links
  rw [List.countP_eq_length_filter]
  exact hle

theorem Open.cons {target : String} (h : Open fs opened) (hnot : path ∉ opened)
    (hnode : fs.node path = some (.link target)) : Open fs (path :: opened) := by
  constructor
  · exact List.nodup_cons.mpr ⟨hnot, h.nodup⟩
  · intro link hlink
    rcases List.mem_cons.mp hlink with rfl | hlink
    · exact mem_linkPaths hnode
    · exact h.links link hlink

theorem joinRealWith_error {expand : List Path → Path → List String → Except PathError Resolution}
    (hexpand : ∀ {path target names error}, path ∉ opened → fs.node path = some (.link target) →
      expand (path :: opened) (start path.dropLast target) names = .error error → error = .embeddedNull)
    {error : PathError} (h : joinRealWith fs opened expand path names = .error error) :
    error = .embeddedNull := by
  induction names generalizing path with
  | nil => cases h
  | cons name rest ih =>
    rcases name_cases fs path name with hhere | ⟨hhere, hup⟩ | hnull | ⟨hname, ⟨target, hnode⟩ | hnode⟩
    · rw [joinRealWith_here hhere] at h
      exact ih h
    · rw [joinRealWith_up hhere hup] at h
      exact ih h
    · rw [joinRealWith_null hnull] at h
      cases h
      rfl
    · rw [joinRealWith_link hname hnode] at h
      by_cases hmem : path ++ [name] ∈ opened
      · rw [if_pos hmem] at h
        cases h
      rw [if_neg hmem] at h
      cases hp : expand ((path ++ [name]) :: opened) (start path target) (segments target.toList) with
      | error e =>
        rw [hp] at h
        cases h
        apply hexpand hmem hnode
        rw [List.dropLast_concat]
        exact hp
      | ok resolution =>
        rw [hp] at h
        cases resolution with
        | looped text => cases h
        | resolved p => exact ih h
    · rw [joinRealWith_on hname hnode] at h
      exact ih h

theorem joinReal_error {depth : ℕ} {error : PathError} (hopened : Open fs opened)
    (hdepth : fs.links ≤ depth + opened.length)
    (h : joinReal fs depth opened path names = .error error) : error = .embeddedNull := by
  induction depth generalizing opened path names error with
  | zero =>
    apply joinRealWith_error _ h
    intro path target names error hnot hnode _
    have hle := (hopened.cons hnot hnode).length_le
    rw [List.length_cons] at hle
    omega
  | succ depth ih =>
    apply joinRealWith_error _ h
    intro path target names error hnot hnode hinner
    apply ih (hopened.cons hnot hnode) _ hinner
    rw [List.length_cons]
    omega

theorem realpath_error {error : PathError} (h : realpath fs names = .error error) :
    error = .embeddedNull := by
  unfold realpath at h
  cases hreal : joinReal fs fs.links [] [] names with
  | ok resolution =>
    rw [hreal] at h
    cases h
  | error e =>
    rw [hreal] at h
    cases h
    apply joinReal_error _ (Nat.le_add_right _ _) hreal
    exact ⟨List.nodup_nil, fun _ hlink => by cases hlink⟩

end Enough

section Slashes

variable {fs : FileSystem} {names : List String}

end Slashes

end Workbench.FileSystems
