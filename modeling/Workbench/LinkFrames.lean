import Workbench.RealPaths

namespace Workbench.FileSystems

open KeyedTable

structure SameLinks (fs fs' : FileSystem) : Prop where
  link : ∀ p target, fs'.node p = some (.link target) ↔ fs.node p = some (.link target)
  count : fs'.links = fs.links

namespace SameLinks

variable {fs fs' fs'' : FileSystem}

theorem refl (fs : FileSystem) : SameLinks fs fs := ⟨fun _ _ => Iff.rfl, rfl⟩

theorem trans (h : SameLinks fs fs') (h' : SameLinks fs' fs'') : SameLinks fs fs'' :=
  ⟨fun p target => (h'.link p target).trans (h.link p target), h'.count.trans h.count⟩

theorem notLink (h : SameLinks fs fs') {path : Path}
    (hpath : ∀ target, fs.node path ≠ some (.link target)) (target : String) :
    fs'.node path ≠ some (.link target) :=
  fun hlink => hpath target ((h.link path target).mp hlink)

theorem canonical (h : SameLinks fs fs') {path : Path} (hpath : Canonical fs path) :
    Canonical fs' path :=
  ⟨fun p hp => h.notLink (hpath.noLink p hp), hpath.named⟩

theorem joinRealWith_eq (h : SameLinks fs fs') (opened : List Path)
    (expand : List Path → Path → List String → Except PathError Resolution) (path : Path)
    (names : List String) :
    joinRealWith fs' opened expand path names = joinRealWith fs opened expand path names := by
  induction names generalizing path with
  | nil => rfl
  | cons name rest ih =>
    rcases name_cases fs path name with hhere | ⟨hhere, hup⟩ | hnull | ⟨hname, ⟨target, hnode⟩ | hnode⟩
    · rw [joinRealWith_here hhere, joinRealWith_here hhere]
      exact ih path
    · rw [joinRealWith_up hhere hup, joinRealWith_up hhere hup]
      exact ih path.dropLast
    · rw [joinRealWith_null hnull, joinRealWith_null hnull]
    · rw [joinRealWith_link hname hnode, joinRealWith_link hname ((h.link _ target).mpr hnode)]
      simp only [ih]
    · rw [joinRealWith_on hname hnode, joinRealWith_on hname (h.notLink hnode)]
      exact ih (path ++ [name])

theorem joinReal_eq (h : SameLinks fs fs') (depth : ℕ) (opened : List Path) :
    joinReal fs' depth opened = joinReal fs depth opened := by
  induction depth generalizing opened with
  | zero =>
    funext path names
    exact h.joinRealWith_eq opened _ path names
  | succ depth ih =>
    funext path names
    unfold joinReal
    rw [funext ih]
    exact h.joinRealWith_eq opened _ path names

theorem realpath_eq (h : SameLinks fs fs') (names : List String) :
    realpath fs' names = realpath fs names := by
  unfold realpath
  rw [h.joinReal_eq, h.count]

theorem unlooped (h : SameLinks fs fs') (hfs : Unlooped fs) : Unlooped fs' := by
  intro names text
  rw [h.joinReal_eq, h.count]
  exact hfs names text

theorem resolve_eq (h : SameLinks fs fs') (hfs : Unlooped fs) (names : List String) :
    resolve fs' names = resolve fs names := by
  cases hreal : joinReal fs fs.links [] [] names with
  | error e =>
    unfold resolve
    rw [h.realpath_eq]
    unfold realpath
    rw [hreal]
    simp only [Except.map, Except.bind]
  | ok resolution =>
    cases resolution with
    | looped text => exact absurd hreal (hfs names text)
    | resolved q =>
      have hreal' : joinReal fs' fs'.links [] [] names = .ok (.resolved q) := by
        rw [h.joinReal_eq, h.count]
        exact hreal
      rw [resolve_follow (joinReal_iff.mp hreal), resolve_follow (joinReal_iff.mp hreal')]

end SameLinks

section Put

variable {fs : FileSystem} {p : Path} {n : Node}

theorem node_root (fs : FileSystem) : fs.node [] = some .dir := if_pos rfl

theorem node_put (hp : p ≠ []) (q : Path) :
    FileSystem.node (fs.put (p, n)) q = if p = q then some n else fs.node q := by
  unfold FileSystem.node
  by_cases hq : q = []
  · rw [if_pos hq, if_pos hq, if_neg]
    rintro rfl
    exact hp hq
  · rw [if_neg hq, if_neg hq, Table.get_put]
    split_ifs
    · rfl
    · rfl

theorem links_put (hp : p ≠ []) (hn : isLink n = false) (hold : (fs.node p).any isLink = false) :
    FileSystem.links (fs.put (p, n)) = fs.links := by
  unfold FileSystem.links Table.put
  split
  · simp [Table.insert, hn]
  · simp only [List.countP_map]
    apply List.countP_congr
    intro e he
    rw [Function.comp_apply]
    split_ifs with hkey
    · have hget : fs.get p = some e := by
        rw [← hkey]
        exact Table.get_of_mem he
      rw [FileSystem.node, if_neg hp, hget] at hold
      have hlink : isLink e.2 = false := hold
      simp [hn, hlink]
    · exact Iff.rfl

theorem sameLinks_put (hp : p ≠ []) (hn : isLink n = false) (hold : (fs.node p).any isLink = false) :
    SameLinks fs (fs.put (p, n)) where
  link q target := by
    rw [node_put hp]
    split_ifs with hq
    · subst hq
      constructor
      · intro h
        cases h
        cases hn
      · intro h
        rw [h] at hold
        cases hold
    · exact Iff.rfl
  count := links_put hp hn hold

end Put

section Directories

variable {fs fs' : FileSystem} {path : Path}

structure Made (fs fs' : FileSystem) (path : Path) : Prop where
  links : SameLinks fs fs'
  node : ∀ q, fs'.node q = fs.node q ∨ q <+: path ∧ fs.node q = none ∧ fs'.node q = some .dir

theorem Made.refl (fs : FileSystem) (path : Path) : Made fs fs path :=
  ⟨SameLinks.refl fs, fun _ => .inl rfl⟩

theorem Made.stays (h : Made fs fs' path) {q : Path} (hq : fs.node q ≠ none) :
    fs'.node q = fs.node q := by
  rcases h.node q with hsame | ⟨-, hnone, -⟩
  · exact hsame
  · exact absurd hnone hq

theorem Made.trans {fs'' : FileSystem} {upper : Path} (h : Made fs fs' upper) (hupper : upper <+: path)
    (h' : Made fs' fs'' path) : Made fs fs'' path where
  links := h.links.trans h'.links
  node q := by
    rcases h.node q with hsame | ⟨hwithin, hnone, hdir⟩
    · rw [← hsame]
      exact h'.node q
    · refine .inr ⟨hwithin.trans hupper, hnone, ?_⟩
      rw [h'.stays (by rw [hdir]; exact Option.some_ne_none _), hdir]

def Leads (fs : FileSystem) (path : Path) : Prop := ∀ p, p <+: path → fs.node p = some .dir

theorem leads_of_last (h : Leads fs path.dropLast) (hdir : fs.node path = some .dir) : Leads fs path := by
  cases path using List.reverseRecOn with
  | nil => exact h
  | append_singleton up name =>
    rw [List.dropLast_concat] at h
    intro p hp
    rcases List.prefix_concat_iff.mp hp with rfl | hp
    · exact hdir
    · exact h p hp

theorem Made.leads (h : Made fs fs' path) {upper : Path} (hupper : Leads fs upper) : Leads fs' upper := by
  intro p hp
  have hdir := hupper p hp
  rw [h.stays (by rw [hdir]; exact Option.some_ne_none _), hdir]

theorem walkWith_leads {create : Bool} {next : Path → List String → Except PathError Path} {q : Path}
    {names : List String} {name : String} (hpath : Canonical fs (path ++ (names ++ [name])))
    (hleads : ∀ p, p <+: path → p ≠ path → fs.node p = some .dir)
    (h : walkWith fs create next path (names ++ [name]) = .ok q) : Leads fs (path ++ names) := by
  induction names generalizing path with
  | nil =>
    rw [List.append_nil]
    rw [List.nil_append, walkWith] at h
    intro p hp
    by_cases hne : p = path
    · by_contra hdir
      rw [hne] at hdir
      rw [if_pos hdir] at h
      cases h
    · exact hleads p hp hne
  | cons first rest ih =>
    have hsnoc : path ++ (first :: rest ++ [name]) = path ++ [first] ++ (rest ++ [name]) := by simp
    rw [hsnoc] at hpath
    have hsnoc' : path ++ first :: rest = path ++ [first] ++ rest := by simp
    rw [hsnoc']
    have hfirst := hpath.named first (by simp)
    have hlink := hpath.noLink _ (List.prefix_append (path ++ [first]) (rest ++ [name]))
    rw [List.cons_append, walkWith, hfirst.1, if_neg Bool.false_ne_true, if_neg hfirst.2.1] at h
    by_cases hdir : fs.node path ≠ some .dir
    · rw [if_pos hdir] at h
      cases h
    rw [if_neg hdir] at h
    apply ih hpath
    · intro p hp hne
      rcases List.prefix_concat_iff.mp hp with rfl | hp
      · exact absurd rfl hne
      · by_cases hsame : p = path
        · rw [hsame]
          exact not_not.mp hdir
        · exact hleads p hp hsame
    · cases hnode : fs.node (path ++ [first]) with
      | none =>
        simp only [hnode] at h
        rw [if_neg] at h
        · cases h
        · rintro ⟨-, hnil⟩
          exact List.append_ne_nil_of_right_ne_nil rest (List.cons_ne_nil name []) hnil
      | some node =>
        cases node with
        | dir =>
          simp only [hnode] at h
          exact h
        | file =>
          simp only [hnode] at h
          exact h
        | link target => exact absurd hnode (hlink target)

theorem Leads.up (h : Leads fs path) : Leads fs path.dropLast :=
  fun p hp => h p (hp.trans (List.dropLast_prefix path))

theorem stat_leads (hpath : Canonical fs path) {q : Path} (h : stat fs path = .ok q)
    (hdir : fs.node path = some .dir) : Leads fs path := by
  cases path using List.reverseRecOn with
  | nil =>
    intro p hp
    rw [List.prefix_nil.mp hp]
    exact hdir
  | append_singleton up name =>
    unfold stat locate at h
    rw [hpath.not_hasNull, if_neg Bool.false_ne_true] at h
    apply leads_of_last _ hdir
    rw [List.dropLast_concat]
    have hnil : Canonical fs ([] ++ (up ++ [name])) := hpath
    apply walkWith_leads hnil _ h
    intro p hp hne
    exact absurd (List.prefix_nil.mp hp) hne

theorem entry_leads (hpath : Canonical fs path) {q : Path} (h : entry fs path = .ok q) :
    q = path ∧ Leads fs path.dropLast := by
  refine ⟨entry_canonical hpath h, ?_⟩
  unfold entry at h
  cases hlast : path.getLast? with
  | none =>
    rw [List.getLast?_eq_none_iff.mp hlast]
    intro p hp
    rw [List.prefix_nil.mp hp]
    exact node_root fs
  | some name =>
    have hname := hpath.named name (List.mem_of_getLast? hlast)
    simp only [hlast, if_neg hname.2.1, hname.2.2, Bool.false_eq_true, if_false] at h
    cases hstat : stat fs path.dropLast with
    | error e =>
      rw [hstat] at h
      cases h
    | ok up =>
      rw [hstat] at h
      simp only [Except.bind] at h
      split_ifs at h with hdir
      rcases locate_canonical hpath.dropLast hstat with he | he | he
      · rw [Except.ok.inj he] at hdir
        exact stat_leads hpath.dropLast hstat hdir
      · cases he
      · cases he

theorem mkdir_made (hpath : Canonical fs path) (h : mkdir fs path = .ok fs') :
    Made fs fs' path ∧ Leads fs' path := by
  unfold mkdir at h
  cases hentry : entry fs path with
  | error e =>
    rw [hentry] at h
    cases h
  | ok q =>
    obtain ⟨rfl, hleads⟩ := entry_leads hpath hentry
    rw [hentry] at h
    simp only [Except.bind] at h
    split_ifs at h with hnone
    cases h
    have hne : q ≠ [] := by
      rintro rfl
      rw [node_root] at hnone
      cases hnone
    have hmade : Made fs (fs.put (q, .dir)) q := by
      constructor
      · exact sameLinks_put hne rfl hpath.not_isLink
      · intro p
        rw [node_put hne]
        split_ifs with hp
        · subst hp
          exact .inr ⟨List.prefix_rfl, hnone, rfl⟩
        · exact .inl rfl
    refine ⟨hmade, ?_⟩
    apply leads_of_last (hmade.leads hleads)
    rw [node_put hne, if_pos rfl]

theorem existOk_made (hpath : Canonical fs path) {done : Except PathError FileSystem}
    (hdone : ∀ made, done = .ok made → Made fs made path ∧ Leads made path)
    (h : existOk fs path done = .ok fs') : Made fs fs' path ∧ Leads fs' path := by
  cases done with
  | ok made =>
    cases h
    exact hdone _ rfl
  | error e =>
    unfold existOk at h
    split_ifs at h with hdir
    cases h
    refine ⟨Made.refl fs path, ?_⟩
    unfold isDir at hdir
    cases hstat : stat fs path with
    | error e =>
      rw [hstat] at hdir
      cases hdir
    | ok q =>
      rw [hstat] at hdir
      have hnode := of_decide_eq_true hdir
      rcases locate_canonical hpath hstat with he | he | he
      · rw [Except.ok.inj he] at hnode
        exact stat_leads hpath hstat hnode
      · cases he
      · cases he

theorem makeUp_made {up : List String} (hpath : Canonical fs up.reverse)
    (h : makeUp fs up = .ok fs') : Made fs fs' up.reverse ∧ Leads fs' up.reverse := by
  induction up generalizing fs' with
  | nil =>
    unfold makeUp at h
    exact existOk_made hpath (fun made => mkdir_made hpath) h
  | cons name up ih =>
    have hupper : up.reverse <+: (name :: up).reverse := by
      rw [List.reverse_cons]
      exact List.prefix_append _ _
    unfold makeUp at h
    split at h
    · cases hmade : makeUp fs up with
      | error e =>
        rw [hmade] at h
        cases h
      | ok made =>
        rw [hmade] at h
        simp only [Except.bind] at h
        obtain ⟨hfirst, -⟩ := ih (hpath.of_prefix hupper) hmade
        have hpath' := hfirst.links.canonical hpath
        split at h
        · cases h
        · obtain ⟨hsecond, hleads⟩ := existOk_made hpath' (fun made' => mkdir_made hpath') h
          exact ⟨hfirst.trans hupper hsecond, hleads⟩
    · exact existOk_made hpath (fun made => mkdir_made hpath) h

theorem makeDirs_made (hpath : Canonical fs path) (h : makeDirs fs path = .ok fs') :
    Made fs fs' path ∧ Leads fs' path := by
  have hmade := makeUp_made (by rw [List.reverse_reverse]; exact hpath) h
  rw [List.reverse_reverse] at hmade
  exact hmade

end Directories

end Workbench.FileSystems
