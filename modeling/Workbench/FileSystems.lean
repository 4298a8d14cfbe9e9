import Workbench.KeyedTable
import Mathlib.Data.List.Basic
import Mathlib.Data.List.Infix

namespace Workbench.FileSystems

open KeyedTable

abbrev Path := List String

inductive Node
  | dir
  | file
  | link (target : String)
  deriving DecidableEq

abbrev FileSystem := Table (Prod.fst : Path × Node → Path)

inductive PathError
  | loop
  | embeddedNull
  | notFound
  | notDirectory
  | exists
  deriving DecidableEq

def FileSystem.node (fs : FileSystem) (path : Path) : Option Node :=
  if path = [] then some .dir else (fs.get path).map Prod.snd

def isLink : Node → Bool
  | .link _ => true
  | _ => false

def FileSystem.links (fs : FileSystem) : ℕ := fs.rows.countP fun entry => isLink entry.2

section Text

def splitSlash : List Char → List (List Char)
  | [] => [[]]
  | c :: cs =>
    if c = '/' then [] :: splitSlash cs
    else match splitSlash cs with
      | [] => [[c]]
      | name :: names => (c :: name) :: names

def isAbsolute (text : String) : Bool := text.toList.head? = some '/'

def segments (text : List Char) : List String := (splitSlash text).map String.ofList

def isHere (name : String) : Bool := name = "" ∨ name = "."

def partsOf (text : List Char) : List String := (segments text).filter fun name => !isHere name

def parts (text : String) : List String := partsOf text.toList

def start (path : Path) (text : String) : Path := if isAbsolute text then [] else path

def Path.text (path : Path) : List Char :=
  if path = [] then ['/'] else path.flatMap fun name => '/' :: name.toList

/-- An absolute path; `doubled` when its root is `//`, which POSIX keeps apart from `/`. -/
structure PurePath where
  doubled : Bool
  names : Path
  deriving DecidableEq

namespace PurePath

def text (path : PurePath) : List Char :=
  if path.doubled then '/' :: Path.text path.names else Path.text path.names

def parents (path : PurePath) : List PurePath :=
  path.names.dropLast.inits.map fun names => ⟨path.doubled, names⟩

end PurePath

end Text

section Walk

variable (fs : FileSystem) (create : Bool)

/-- The kernel's way along the names: `next` goes on with the names in a link before those after it.
With `create` the last name need not be there. -/
def walkWith (next : Path → List String → Except PathError Path) :
    Path → List String → Except PathError Path
  | path, [] => .ok path
  | path, name :: rest =>
    if fs.node path ≠ some .dir then .error .notDirectory
    else if isHere name then walkWith next path rest
    else if name = ".." then walkWith next path.dropLast rest
    else match fs.node (path ++ [name]) with
      | none => if create ∧ rest = [] then .ok (path ++ [name]) else .error .notFound
      | some (.link target) => next (start path target) (segments target.toList ++ rest)
      | some _ => walkWith next (path ++ [name]) rest

def walk : ℕ → Path → List String → Except PathError Path
  | 0 => walkWith fs create fun _ _ => .error .loop
  | links + 1 => walkWith fs create (walk links)

end Walk

def maxSymlinks : ℕ := 40

def hasNull (name : String) : Bool := '\x00' ∈ name.toList

/-- Where the kernel gets to from the root; Python gives it no name with a null character. -/
def locate (fs : FileSystem) (create : Bool) (names : List String) : Except PathError Path :=
  if names.any hasNull then .error .embeddedNull else walk fs create maxSymlinks [] names

def stat (fs : FileSystem) (names : List String) : Except PathError Path := locate fs false names

def isDir (fs : FileSystem) (names : List String) : Bool :=
  match stat fs names with
  | .ok path => fs.node path = some .dir
  | .error _ => false

def isFile (fs : FileSystem) (names : List String) : Bool :=
  match stat fs names with
  | .ok path => fs.node path = some .file
  | .error _ => false

def entry (fs : FileSystem) (names : List String) : Except PathError Path :=
  match names.getLast? with
  | none => .ok []
  | some name =>
    if name = ".." then stat fs names
    else if hasNull name then .error .embeddedNull
    else (stat fs names.dropLast).bind fun path =>
      if fs.node path = some .dir then .ok (path ++ [name]) else .error .notDirectory

def islink (fs : FileSystem) (names : List String) : Bool :=
  match entry fs names with
  | .ok path => (fs.node path).any isLink
  | .error _ => false

def mkdir (fs : FileSystem) (names : List String) : Except PathError FileSystem :=
  (entry fs names).bind fun path =>
    if fs.node path = none then .ok (fs.put (path, .dir)) else .error .exists

def existOk (fs : FileSystem) (names : List String) :
    Except PathError FileSystem → Except PathError FileSystem
  | .ok made => .ok made
  | .error error => if isDir fs names then .ok fs else .error error

/-- `Path.mkdir` with its parents, the last name first. -/
def makeUp (fs : FileSystem) : List String → Except PathError FileSystem
  | [] => existOk fs [] (mkdir fs [])
  | name :: up =>
    match mkdir fs (name :: up).reverse with
    | .error .notFound => (makeUp fs up).bind fun made =>
        match mkdir made (name :: up).reverse with
        | .error .notFound => .error .notFound
        | made' => existOk made (name :: up).reverse made'
    | made => existOk fs (name :: up).reverse made

def makeDirs (fs : FileSystem) (path : Path) : Except PathError FileSystem := makeUp fs path.reverse

section Follow

variable (fs : FileSystem)

/-- Along the names with all links followed, by `expand`; what is not there stands for itself. -/
def followWith (expand : Path → List String → Except PathError Path) :
    Path → List String → Except PathError Path
  | path, [] => .ok path
  | path, name :: rest =>
    if isHere name then followWith expand path rest
    else if name = ".." then followWith expand path.dropLast rest
    else if hasNull name then .error .embeddedNull
    else match fs.node (path ++ [name]) with
      | some (.link target) =>
        (expand (start path target) (segments target.toList)).bind fun p => followWith expand p rest
      | _ => followWith expand (path ++ [name]) rest

def follow : ℕ → Path → List String → Except PathError Path
  | 0 => followWith fs fun _ _ => .error .loop
  | depth + 1 => followWith fs (follow depth)

/-- When more links are inside one another than there are, one is inside itself. -/
def followAll (names : List String) : Except PathError Path := follow fs fs.links [] names

end Follow

structure Canonical (fs : FileSystem) (path : Path) : Prop where
  noLink : ∀ p, p <+: path → ∀ target, fs.node p ≠ some (.link target)
  named : ∀ name ∈ path, isHere name = false ∧ name ≠ ".." ∧ hasNull name = false

namespace Canonical

variable {fs : FileSystem} {path : Path}

theorem root : Canonical fs [] := by
  constructor
  · intro p hp target
    rw [List.prefix_nil.mp hp]
    simp [FileSystem.node]
  · intro name hname
    cases hname

theorem of_prefix {p : Path} (h : Canonical fs path) (hp : p <+: path) : Canonical fs p :=
  ⟨fun q hq => h.noLink q (hq.trans hp), fun name hname => h.named name (hp.subset hname)⟩

theorem dropLast (h : Canonical fs path) : Canonical fs path.dropLast :=
  h.of_prefix (List.dropLast_prefix path)

theorem append {name : String} (h : Canonical fs path)
    (hlink : ∀ target, fs.node (path ++ [name]) ≠ some (.link target))
    (hname : isHere name = false ∧ name ≠ ".." ∧ hasNull name = false) :
    Canonical fs (path ++ [name]) := by
  constructor
  · intro p hp target
    rcases List.prefix_concat_iff.mp hp with rfl | hp
    · exact hlink target
    · exact h.noLink p hp target
  · intro n hn
    rcases List.mem_append.mp hn with hn | hn
    · exact h.named n hn
    · rw [List.mem_singleton.mp hn]
      exact hname

theorem start (h : Canonical fs path) (target : String) : Canonical fs (start path target) := by
  unfold FileSystems.start
  split_ifs
  · exact root
  · exact h

theorem not_isLink (h : Canonical fs path) : (fs.node path).any isLink = false := by
  cases hnode : fs.node path with
  | none => rfl
  | some node =>
    cases node with
    | dir => rfl
    | file => rfl
    | link target => exact absurd hnode (h.noLink path List.prefix_rfl target)

theorem not_hasNull (h : Canonical fs path) : path.any hasNull = false := by
  apply List.any_eq_false.mpr
  intro name hname
  rw [(h.named name hname).2.2]
  exact Bool.false_ne_true

end Canonical

section Following

variable {fs : FileSystem} {expand : Path → List String → Except PathError Path} {path q : Path}
  {name : String} {rest : List String}

theorem followWith_here (h : isHere name = true) :
    followWith fs expand path (name :: rest) = followWith fs expand path rest := by
  rw [followWith, if_pos h]

theorem followWith_up (h : isHere name = false) (hup : name = "..") :
    followWith fs expand path (name :: rest) = followWith fs expand path.dropLast rest := by
  rw [followWith, h, if_neg Bool.false_ne_true, if_pos hup]

theorem followWith_link {target : String} (hname : isHere name = false ∧ name ≠ ".." ∧ hasNull name = false)
    (h : fs.node (path ++ [name]) = some (.link target)) :
    followWith fs expand path (name :: rest) =
      (expand (start path target) (segments target.toList)).bind fun p => followWith fs expand p rest := by
  rw [followWith, hname.1, hname.2.2, if_neg Bool.false_ne_true, if_neg hname.2.1,
    if_neg Bool.false_ne_true, h]

theorem followWith_on (hname : isHere name = false ∧ name ≠ ".." ∧ hasNull name = false)
    (h : ∀ target, fs.node (path ++ [name]) ≠ some (.link target)) :
    followWith fs expand path (name :: rest) = followWith fs expand (path ++ [name]) rest := by
  rw [followWith, hname.1, hname.2.2, if_neg Bool.false_ne_true, if_neg hname.2.1,
    if_neg Bool.false_ne_true]
  cases hnode : fs.node (path ++ [name]) with
  | none => rfl
  | some node =>
    cases node with
    | dir => rfl
    | file => rfl
    | link target => exact absurd hnode (h target)

variable (fs path name) in
theorem name_cases : isHere name = true ∨ isHere name = false ∧ name = ".." ∨
    isHere name = false ∧ name ≠ ".." ∧ hasNull name = true ∨
    (isHere name = false ∧ name ≠ ".." ∧ hasNull name = false) ∧
      ((∃ target, fs.node (path ++ [name]) = some (.link target)) ∨
        ∀ target, fs.node (path ++ [name]) ≠ some (.link target)) := by
  cases hhere : isHere name with
  | true => exact .inl rfl
  | false =>
    by_cases hup : name = ".."
    · exact .inr (.inl ⟨rfl, hup⟩)
    · cases hnull : hasNull name with
      | true => exact .inr (.inr (.inl ⟨rfl, hup, rfl⟩))
      | false =>
        refine .inr (.inr (.inr ⟨⟨rfl, hup, rfl⟩, ?_⟩))
        by_cases hlink : ∃ target, fs.node (path ++ [name]) = some (.link target)
        · exact .inl hlink
        · exact .inr (not_exists.mp hlink)

theorem followWith_null (hname : isHere name = false ∧ name ≠ ".." ∧ hasNull name = true) :
    followWith fs expand path (name :: rest) = .error .embeddedNull := by
  rw [followWith, hname.1, if_neg Bool.false_ne_true, if_neg hname.2.1, if_pos hname.2.2]

theorem followWith_cons (h : followWith fs expand path (name :: rest) = .ok q) :
    (isHere name = true ∧ followWith fs expand path rest = .ok q) ∨
    (isHere name = false ∧ name = ".." ∧ followWith fs expand path.dropLast rest = .ok q) ∨
    (isHere name = false ∧ name ≠ ".." ∧ hasNull name = false) ∧
      ((∃ target p, fs.node (path ++ [name]) = some (.link target) ∧
          expand (start path target) (segments target.toList) = .ok p ∧
          followWith fs expand p rest = .ok q) ∨
        (∀ target, fs.node (path ++ [name]) ≠ some (.link target)) ∧
          followWith fs expand (path ++ [name]) rest = .ok q) := by
  rcases name_cases fs path name with hhere | ⟨hhere, hup⟩ | hnull | ⟨hname, ⟨target, hlink⟩ | hlink⟩
  · rw [followWith_here hhere] at h
    exact .inl ⟨hhere, h⟩
  · rw [followWith_up hhere hup] at h
    exact .inr (.inl ⟨hhere, hup, h⟩)
  · rw [followWith_null hnull] at h
    cases h
  · rw [followWith_link hname hlink] at h
    cases hp : expand (start path target) (segments target.toList) with
    | error e =>
      rw [hp] at h
      cases h
    | ok p =>
      rw [hp] at h
      exact .inr (.inr ⟨hname, .inl ⟨target, p, hlink, hp, h⟩⟩)
  · rw [followWith_on hname hlink] at h
    exact .inr (.inr ⟨hname, .inr ⟨hlink, h⟩⟩)

theorem canonical_followWith {names : List String}
    (hexpand : ∀ {p names q}, Canonical fs p → expand p names = .ok q → Canonical fs q)
    (hpath : Canonical fs path) (h : followWith fs expand path names = .ok q) : Canonical fs q := by
  induction names generalizing path with
  | nil =>
    cases h
    exact hpath
  | cons name rest ih =>
    rcases followWith_cons h with ⟨-, hon⟩ | ⟨-, -, hup⟩ | ⟨hname, ⟨target, p, -, hp, hon⟩ | ⟨hlink, hon⟩⟩
    · exact ih hpath hon
    · exact ih hpath.dropLast hup
    · exact ih (hexpand (hpath.start target) hp) hon
    · exact ih (hpath.append hlink hname) hon

theorem canonical_follow {depth : ℕ} {names : List String} (hpath : Canonical fs path)
    (h : follow fs depth path names = .ok q) : Canonical fs q := by
  induction depth generalizing path names q with
  | zero =>
    apply canonical_followWith _ hpath h
    intro p names q _ hloop
    cases hloop
  | succ depth ih => exact canonical_followWith ih hpath h

theorem canonical_followAll {names : List String} (h : followAll fs names = .ok q) : Canonical fs q :=
  canonical_follow Canonical.root h

theorem followWith_canonical {names : List String} (hpath : Canonical fs (path ++ names)) :
    followWith fs expand path names = .ok (path ++ names) := by
  induction names generalizing path with
  | nil => rw [followWith, List.append_nil]
  | cons name rest ih =>
    have hsnoc : path ++ name :: rest = path ++ [name] ++ rest := by simp
    rw [hsnoc] at hpath ⊢
    rw [followWith_on (hpath.named name (by simp)) (hpath.noLink _ (List.prefix_append _ rest))]
    exact ih hpath

theorem followAll_canonical (h : Canonical fs path) : followAll fs path = .ok path := by
  unfold followAll
  cases fs.links with
  | zero => exact followWith_canonical h
  | succ depth => exact followWith_canonical h

theorem walkWith_canonical {create : Bool} {next : Path → List String → Except PathError Path}
    {names : List String} (hpath : Canonical fs (path ++ names)) {done : Except PathError Path}
    (h : walkWith fs create next path names = done) :
    done = .ok (path ++ names) ∨ done = .error .notFound ∨ done = .error .notDirectory := by
  induction names generalizing path with
  | nil =>
    rw [← h, walkWith, List.append_nil]
    exact .inl rfl
  | cons name rest ih =>
    have hsnoc : path ++ name :: rest = path ++ [name] ++ rest := by simp
    rw [hsnoc] at hpath ⊢
    have hname := hpath.named name (by simp)
    have hlink := hpath.noLink _ (List.prefix_append (path ++ [name]) rest)
    rw [walkWith, hname.1, if_neg Bool.false_ne_true, if_neg hname.2.1] at h
    by_cases hdir : fs.node path ≠ some .dir
    · rw [if_pos hdir] at h
      exact .inr (.inr h.symm)
    rw [if_neg hdir] at h
    cases hnode : fs.node (path ++ [name]) with
    | none =>
      simp only [hnode] at h
      split_ifs at h with hlast
      · rw [← h, hlast.2, List.append_nil]
        exact .inl rfl
      · exact .inr (.inl h.symm)
    | some node =>
      cases node with
      | dir =>
        simp only [hnode] at h
        exact ih hpath h
      | file =>
        simp only [hnode] at h
        exact ih hpath h
      | link target => exact absurd hnode (hlink target)

theorem locate_canonical {create : Bool} (hpath : Canonical fs path) {done : Except PathError Path}
    (h : locate fs create path = done) :
    done = .ok path ∨ done = .error .notFound ∨ done = .error .notDirectory := by
  unfold locate at h
  rw [hpath.not_hasNull, if_neg Bool.false_ne_true] at h
  have hnil : Canonical fs ([] ++ path) := hpath
  exact walkWith_canonical hnil h

theorem entry_canonical (hpath : Canonical fs path) {p : Path} (h : entry fs path = .ok p) : p = path := by
  unfold entry at h
  cases hlast : path.getLast? with
  | none =>
    rw [List.getLast?_eq_none_iff.mp hlast] at h ⊢
    cases h
    rfl
  | some name =>
    have hname := hpath.named name (List.mem_of_getLast? hlast)
    simp only [hlast, if_neg hname.2.1, hname.2.2, Bool.false_eq_true, if_false] at h
    cases hdir : stat fs path.dropLast with
    | error e =>
      rw [hdir] at h
      cases h
    | ok dir =>
      rw [hdir] at h
      simp only [Except.bind] at h
      split_ifs at h
      cases h
      rcases locate_canonical hpath.dropLast hdir with he | he | he
      · rw [Except.ok.inj he]
        exact List.dropLast_append_getLast? name hlast
      · cases he
      · cases he

theorem islink_canonical (hpath : Canonical fs path) : islink fs path = false := by
  unfold islink
  cases h : entry fs path with
  | error e => rfl
  | ok p =>
    rw [entry_canonical hpath h]
    exact hpath.not_isLink

end Following

section Depths

variable {fs : FileSystem} {depth : ℕ} {path p q : Path} {names rest : List String}

theorem followWith_mono {expand expand' : Path → List String → Except PathError Path}
    (hexpand : ∀ {p names q}, expand p names = .ok q → expand' p names = .ok q)
    (h : followWith fs expand path names = .ok q) : followWith fs expand' path names = .ok q := by
  induction names generalizing path with
  | nil => exact h
  | cons name rest ih =>
    rcases followWith_cons h with
      ⟨hhere, hon⟩ | ⟨hhere, hup, hon⟩ | ⟨hname, ⟨target, p, hlink, hp, hon⟩ | ⟨hlink, hon⟩⟩
    · rw [followWith_here hhere]
      exact ih hon
    · rw [followWith_up hhere hup]
      exact ih hon
    · rw [followWith_link hname hlink, hexpand hp]
      exact ih hon
    · rw [followWith_on hname hlink]
      exact ih hon

theorem follow_succ (h : follow fs depth path names = .ok q) : follow fs (depth + 1) path names = .ok q := by
  induction depth generalizing path names q with
  | zero =>
    apply followWith_mono _ h
    intro p names q hloop
    cases hloop
  | succ depth ih => exact followWith_mono ih h

theorem follow_mono {depth' : ℕ} (hdepth : depth ≤ depth') (h : follow fs depth path names = .ok q) :
    follow fs depth' path names = .ok q := by
  induction hdepth with
  | refl => exact h
  | step _ ih => exact follow_succ ih

end Depths

section Slashes

def Slashless (names : List String) : Prop := ∀ name ∈ names, '/' ∉ name.toList

theorem slashless_nil : Slashless [] := List.forall_mem_nil _

theorem Slashless.append {names names' : List String} (h : Slashless names) (h' : Slashless names') :
    Slashless (names ++ names') := by
  intro name hname
  rcases List.mem_append.mp hname with hname | hname
  · exact h name hname
  · exact h' name hname

theorem Slashless.start {path : Path} (h : Slashless path) (target : String) :
    Slashless (start path target) := by
  unfold FileSystems.start
  split_ifs
  · exact fun _ hname => by cases hname
  · exact h

end Slashes

section Parents

def PurePath.Beneath (root path : PurePath) : Prop :=
  root.doubled = path.doubled ∧ root.names <+: path.names

theorem mem_parents {root path : PurePath} :
    path ≠ root ∧ root ∉ path.parents ↔ ¬root.Beneath path := by
  unfold PurePath.parents PurePath.Beneath
  obtain ⟨doubled, names⟩ := path
  obtain ⟨doubled', root⟩ := root
  simp only [ne_eq, PurePath.mk.injEq, List.mem_map, List.mem_inits]
  constructor
  · rintro ⟨hne, hparent⟩ ⟨hd, rest, hrest⟩
    cases rest using List.reverseRecOn with
    | nil => exact hne ⟨hd.symm, by rw [← hrest, List.append_nil]⟩
    | append_singleton rest name =>
      refine hparent ⟨root, ?_, hd.symm, rfl⟩
      rw [← hrest, ← List.append_assoc, List.dropLast_concat]
      exact List.prefix_append root rest
  · intro h
    constructor
    · rintro ⟨rfl, rfl⟩
      exact h ⟨rfl, List.prefix_rfl⟩
    · rintro ⟨p, hp, rfl, rfl⟩
      exact h ⟨rfl, hp.trans (List.dropLast_prefix names)⟩

end Parents

end Workbench.FileSystems
