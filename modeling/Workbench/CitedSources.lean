import Workbench.ResearchRuns

namespace Workbench.Research

open AgentRuntime KeyedTable NetGuard PyJson ToolGateway

variable {J : Type}

section Answers

variable (w : World) (allowlist : Finset String)

def searched (x : String × ℕ) : List Hit :=
  if "web_search" ∈ allowlist then (w.webSearch (x.2, 0) (queryArgs x.1)).toOption.getD [] else []

def looked (subQuestions : List String) : List (Place × String) :=
  subQuestions.zipIdx.flatMap fun x =>
    (((searched w allowlist x).take 2).zipIdx 1).map fun y => ((x.2, y.2), y.1.url)

def fetchedPage (x : Place × String) : Option Page :=
  if "fetch" ∈ allowlist then (w.family.fetch x.1 (urlArgs x.2)).toOption else none

def firstPage (xs : List (Place × String)) (url : String) : Option Page :=
  xs.findSome? fun x => if x.2 = url then fetchedPage w allowlist x else none

/-- The pages that count: of each URL the first, unless the URL is empty. -/
def count (pages : List (String × Page)) (x : Place × String) : List (String × Page) :=
  if x.2 = "" ∨ x.2 ∈ pages.map Prod.fst then pages
  else (fetchedPage w allowlist x).elim pages fun page => pages ++ [(x.2, page)]

def counted (xs : List (Place × String)) : List (String × Page) :=
  xs.foldl (count w allowlist) []

variable {w allowlist}

theorem count_nodup {pages : List (String × Page)} {x : Place × String}
    (h : (pages.map Prod.fst).Nodup) : ((count w allowlist pages x).map Prod.fst).Nodup := by
  unfold count
  split_ifs with hskip
  · exact h
  · cases fetchedPage w allowlist x with
    | none => exact h
    | some page =>
      rw [Option.elim_some, List.map_append]
      apply h.append (List.nodup_singleton _)
      rw [List.disjoint_singleton]
      exact fun hmem => hskip (.inr hmem)

theorem fetchedPage_ok {x : Place × String} {page : Page} (h : fetchedPage w allowlist x = some page) :
    w.family.fetch x.1 (urlArgs x.2) = .ok page := by
  unfold fetchedPage at h
  split_ifs at h
  cases hfetch : w.family.fetch x.1 (urlArgs x.2) with
  | error e =>
    rw [hfetch] at h
    cases h
  | ok p =>
    rw [hfetch] at h
    exact congrArg _ (Option.some.inj h)

theorem counted_snoc (xs : List (Place × String)) (x : Place × String) :
    counted w allowlist (xs ++ [x]) = count w allowlist (counted w allowlist xs) x := by
  unfold counted
  rw [List.foldl_append]
  rfl

theorem firstPage_snoc (xs : List (Place × String)) (x : Place × String) (url : String) :
    firstPage w allowlist (xs ++ [x]) url = (firstPage w allowlist xs url).or
      (if x.2 = url then fetchedPage w allowlist x else none) := by
  unfold firstPage
  rw [List.findSome?_append, List.findSome?_singleton]

theorem counted_nodup (xs : List (Place × String)) :
    ((counted w allowlist xs).map Prod.fst).Nodup := by
  induction xs using List.reverseRecOn with
  | nil => exact List.nodup_nil
  | append_singleton xs x ih =>
    rw [counted_snoc]
    exact count_nodup ih

theorem mem_counted {xs : List (Place × String)} {url : String} {page : Page} :
    (url, page) ∈ counted w allowlist xs ↔ url ≠ "" ∧ firstPage w allowlist xs url = some page := by
  induction xs using List.reverseRecOn generalizing url page with
  | nil => simp [counted, firstPage]
  | append_singleton xs x ih =>
    rw [counted_snoc, firstPage_snoc, count]
    have hkeys : x.2 ∈ (counted w allowlist xs).map Prod.fst ↔
        x.2 ≠ "" ∧ firstPage w allowlist xs x.2 ≠ none := by
      rw [List.mem_map]
      constructor
      · rintro ⟨⟨u, p⟩, hmem, rfl⟩
        have hfirst := ih.mp hmem
        exact ⟨hfirst.1, by simp [hfirst.2]⟩
      · rintro ⟨hne, hsome⟩
        obtain ⟨p, hp⟩ := Option.ne_none_iff_exists'.mp hsome
        exact ⟨(x.2, p), ih.mpr ⟨hne, hp⟩, rfl⟩
    by_cases hskip : x.2 = "" ∨ x.2 ∈ (counted w allowlist xs).map Prod.fst
    · rw [if_pos hskip, ih]
      apply and_congr_right
      intro hurl
      by_cases hx : x.2 = url
      · rcases hskip with hempty | hmem
        · exact absurd (hx.symm.trans hempty) hurl
        · obtain ⟨p, hp⟩ := Option.ne_none_iff_exists'.mp (hkeys.mp hmem).2
          rw [← hx, hp]
          rfl
      · rw [if_neg hx, Option.or_none]
    · rw [if_neg hskip]
      have hne : x.2 ≠ "" := fun hempty => hskip (.inl hempty)
      have hnone : firstPage w allowlist xs x.2 = none := by
        by_contra hsome
        exact hskip (.inr (hkeys.mpr ⟨hne, hsome⟩))
      cases hpage : fetchedPage w allowlist x with
      | none => simp [ih]
      | some p =>
        rw [Option.elim_some, List.mem_append, List.mem_singleton, ih]
        by_cases hx : x.2 = url
        · subst hx
          simp [hne, hnone, eq_comm]
        · simp [hx, Ne.symm hx]

end Answers

section Calls

variable {w : World} {allowlist : Finset String} {g : Gateway}

theorem tools_webSearch : (buildGateway w).tools.get "web_search" =
    some ⟨webSearchSpec, fun c args => (w.webSearch c args).map .hits⟩ := by
  unfold buildGateway
  split
  · rfl
  · rfl

theorem tools_fetch : (buildGateway w).tools.get "fetch" =
    some ⟨fetchSpec, fun c args => (w.family.fetch c args).map .page⟩ := by
  unfold buildGateway
  split
  · rfl
  · rfl

theorem call_output {tool : String} {registered : Registered Json (Connector Place Json Output)}
    {c : Place} {args : Json} {m : Moment} (hr : g.tools.get tool = some registered) :
    (g.call c tool args (some allowlist) m).2.output =
      if tool ∈ allowlist then (registered.handler c args).toOption else none := by
  apply Option.ext
  intro v
  rw [call_cases.output]
  simp only [begun, Call.permitted, hr]
  split_ifs with hp
  · cases hanswer : registered.handler c args with
    | error e => simp [hp, hanswer, Except.toOption]
    | ok output => simp [hp, hanswer, Except.toOption]
  · simp [hp]

theorem fetch_output {x : Place × String} {m : Moment} (hg : g.tools = (buildGateway w).tools) :
    (g.call x.1 "fetch" (urlArgs x.2) (some allowlist) m).2.output =
      (fetchedPage w allowlist x).map .page := by
  rw [call_output ((congrArg (fun t => t.get "fetch") hg).trans tools_fetch)]
  unfold fetchedPage
  split_ifs
  · change ((w.family.fetch x.1 (urlArgs x.2)).map Output.page).toOption = _
    cases w.family.fetch x.1 (urlArgs x.2) with
    | error e => rfl
    | ok page => rfl
  · rfl

theorem search_output {x : String × ℕ} {m : Moment} (hg : g.tools = (buildGateway w).tools) :
    hitsOf (g.call (x.2, 0) "web_search" (queryArgs x.1) (some allowlist) m).2.output =
      searched w allowlist x := by
  rw [call_output ((congrArg (fun t => t.get "web_search") hg).trans tools_webSearch)]
  unfold searched
  split_ifs
  · change hitsOf ((w.webSearch (x.2, 0) (queryArgs x.1)).map Output.hits).toOption = _
    cases w.webSearch (x.2, 0) (queryArgs x.1) with
    | error e => rfl
    | ok hits => rfl
  · rfl

end Calls

section Gather

variable (w : World)

def FetchAudited (audit : List (AuditEntry Json)) (url : String) : Prop :=
  ∃ entry ∈ audit, entry.tool = "fetch" ∧ entry.args = urlArgs url ∧ entry.allowed = true ∧
    entry.error = none

def Gave (w : World) (fetches : List FetchCall) (url : String) (page : Page) : Prop :=
  ∃ f ∈ fetches, f.url = url ∧ f.result.allowed = true ∧ f.result.error = none ∧
    f.result.output = some (.page page) ∧ w.family.fetch f.place (urlArgs url) = .ok page

structure Gathers (pages : List (String × Page)) (g : Gathering) : Prop where
  tools : g.gateway.tools = (buildGateway w).tools
  sources : g.sources = (pages.zipIdx 1).map fun x => ⟨x.2, x.1.1, x.1.2.title⟩
  seen : ∀ url, url ∈ g.seen ↔ url ∈ pages.map Prod.fst
  bodies : ∀ x ∈ pages, bodyOf g.bodies x.1 = x.2.text
  audited : ∀ x ∈ pages, FetchAudited g.gateway.audit x.1
  gave : ∀ url page, Gave w g.fetches url page ↔ (url, page) ∈ pages

variable {w} {allowlist : Finset String} {pages : List (String × Page)} {g : Gathering}

theorem FetchAudited.append {audit : List (AuditEntry Json)} {url : String}
    (h : FetchAudited audit url) (rest : List (AuditEntry Json)) :
    FetchAudited (audit ++ rest) url := by
  obtain ⟨entry, hmem, hentry⟩ := h
  exact ⟨entry, List.mem_append_left rest hmem, hentry⟩

theorem gave_snoc {fetches : List FetchCall} {f : FetchCall} {url : String} {page : Page} :
    Gave w (fetches ++ [f]) url page ↔ Gave w fetches url page ∨ Gave w [f] url page := by
  unfold Gave
  simp only [List.mem_append, or_and_right, exists_or]

theorem audit_call (allowlist : Finset String) (c : Place) (tool : String) (args : Json) (m : Moment) :
    (g.gateway.call c tool args (some allowlist) m).1.tools = g.gateway.tools ∧
      ∃ entry, (g.gateway.call c tool args (some allowlist) m).1.audit =
        g.gateway.audit ++ [entry] := by
  have hcall : CallTo g.gateway c (begun tool args (some allowlist)) m
      (g.gateway.call c tool args (some allowlist) m) := call_cases
  have hnoted := hcall.noted
  obtain ⟨entry, haudit, -⟩ := hnoted.audit
  exact ⟨hnoted.tools, entry, haudit⟩

theorem Gathers.called (h : Gathers w pages g) (allowlist : Finset String) (c : Place)
    (tool : String) (args : Json) (m : Moment) {fetches : List FetchCall}
    (hfetches : ∀ url page, Gave w fetches url page ↔ Gave w g.fetches url page) :
    Gathers w pages { g with
      gateway := (g.gateway.call c tool args (some allowlist) m).1
      fetches := fetches } := by
  obtain ⟨htools, entry, haudit⟩ := audit_call (g := g) allowlist c tool args m
  refine ⟨htools.trans h.tools, h.sources, h.seen, h.bodies, ?_, ?_⟩
  · intro x hx
    simp only [haudit]
    exact (h.audited x hx).append [entry]
  · intro url page
    rw [hfetches]
    exact h.gave url page

theorem bodyOf_put (bodies : Bodies) (url text u : String) :
    bodyOf (bodies.put (url, text)) u = if url = u then text else bodyOf bodies u := by
  unfold bodyOf
  rw [Table.get_put]
  split_ifs
  · rfl
  · rfl

theorem audited_of_output {c : Place} {url : String} {m : Moment} {v : Output}
    (hv : (g.gateway.call c "fetch" (urlArgs url) (some allowlist) m).2.output = some v) :
    FetchAudited (g.gateway.call c "fetch" (urlArgs url) (some allowlist) m).1.audit url := by
  have hcall : CallTo g.gateway c (begun "fetch" (urlArgs url) (some allowlist)) m
      (g.gateway.call c "fetch" (urlArgs url) (some allowlist) m) := call_cases
  obtain ⟨entry, haudit, htool, hargs, hallowed, herror⟩ := hcall.noted.audit
  have hresult := hcall.allowed hv
  rw [haudit]
  exact ⟨entry, List.mem_append_right _ List.mem_cons_self, htool, hargs,
    hallowed.trans hresult.1, herror.trans hresult.2⟩

theorem zipIdx_snoc {A : Type} (xs : List A) (x : A) (n : ℕ) :
    (xs ++ [x]).zipIdx n = xs.zipIdx n ++ [(x, n + xs.length)] := by
  rw [List.zipIdx_append]
  rfl

theorem Gathers.append (h : Gathers w pages g) {url : String} {page : Page} {gateway : Gateway}
    {fetches : List FetchCall} (hnew : url ∉ pages.map Prod.fst)
    (htools : gateway.tools = (buildGateway w).tools)
    (hold : ∀ x ∈ pages, FetchAudited gateway.audit x.1) (haudited : FetchAudited gateway.audit url)
    (hgave : ∀ u p, Gave w fetches u p ↔ Gave w g.fetches u p ∨ u = url ∧ p = page) :
    Gathers w (pages ++ [(url, page)])
      { gateway := gateway
        sources := g.sources ++ [⟨g.sources.length + 1, url, page.title⟩]
        bodies := g.bodies.put (url, page.text)
        seen := insert url g.seen
        fetches := fetches } := by
  constructor
  · exact htools
  · rw [zipIdx_snoc, List.map_append, h.sources, List.length_map, List.length_zipIdx, Nat.add_comm]
    rfl
  · intro u
    rw [Finset.mem_insert, h.seen, List.map_append, List.mem_append, List.map_singleton,
      List.mem_singleton, or_comm]
  · intro x hx
    rw [bodyOf_put]
    rcases List.mem_append.mp hx with hmem | hlast
    · have hne : url ≠ x.1 := by
        rintro rfl
        exact hnew (List.mem_map_of_mem hmem)
      rw [if_neg hne]
      exact h.bodies x hmem
    · rw [List.mem_singleton.mp hlast, if_pos rfl]
  · intro x hx
    rcases List.mem_append.mp hx with hx | hx
    · exact hold x hx
    · rw [List.mem_singleton.mp hx]
      exact haudited
  · intro u p
    rw [hgave, h.gave, List.mem_append, List.mem_singleton, Prod.mk.injEq]

theorem gave_none {f : FetchCall} (h : f.result.output = none) (url : String) (page : Page) :
    ¬Gave w [f] url page := by
  rintro ⟨f', hf, -, -, -, houtput, -⟩
  rw [List.mem_singleton.mp hf, h] at houtput
  cases houtput

theorem gave_page {f : FetchCall} {page : Page} (hallowed : f.result.allowed = true)
    (herror : f.result.error = none) (houtput : f.result.output = some (.page page))
    (hfetch : w.family.fetch f.place (urlArgs f.url) = .ok page) (u : String) (p : Page) :
    Gave w [f] u p ↔ u = f.url ∧ p = page := by
  constructor
  · rintro ⟨f', hf, hurl, -, -, hp, -⟩
    rw [List.mem_singleton.mp hf] at hurl hp
    rw [houtput] at hp
    cases hp
    exact ⟨hurl.symm, rfl⟩
  · rintro ⟨rfl, rfl⟩
    exact ⟨f, List.mem_singleton.mpr rfl, rfl, hallowed, herror, houtput, hfetch⟩

theorem Gathers.visit (h : Gathers w pages g) (i : ℕ) (x : Hit × ℕ) :
    Gathers w (count w allowlist pages ((i, x.2), x.1.url)) (visit w allowlist i g x) := by
  unfold Research.visit count
  simp only [h.seen]
  by_cases hskip : x.1.url = "" ∨ x.1.url ∈ pages.map Prod.fst
  · rw [if_pos hskip, if_pos hskip]
    exact h
  rw [if_neg hskip, if_neg hskip]
  have houtput : (g.gateway.call (i, x.2) "fetch" (urlArgs x.1.url) (some allowlist)
      (w.moments (i, x.2))).2.output =
        (fetchedPage w allowlist ((i, x.2), x.1.url)).map .page :=
    fetch_output (x := ((i, x.2), x.1.url)) h.tools
  cases hpage : fetchedPage w allowlist ((i, x.2), x.1.url) with
  | none =>
    rw [hpage, Option.map_none] at houtput
    simp only [houtput]
    apply h.called
    intro url page
    rw [gave_snoc, or_iff_left]
    exact gave_none houtput url page
  | some page =>
    rw [hpage, Option.map_some] at houtput
    have hallowed := call_cases.allowed houtput
    have hcalled := h.called allowlist (i, x.2) "fetch" (urlArgs x.1.url) (w.moments (i, x.2))
      fun _ _ => Iff.rfl
    simp only [houtput]
    rw [if_pos ⟨hallowed.1, .inl hallowed.2⟩]
    apply h.append (fun hmem => hskip (.inr hmem)) hcalled.tools hcalled.audited
    · exact audited_of_output houtput
    · intro u p
      rw [gave_snoc]
      apply or_congr_right
      exact gave_page hallowed.1 hallowed.2 houtput (fetchedPage_ok hpage) u p

theorem Gathers.foldl {i : ℕ} (hits : List (Hit × ℕ)) {pages : List (String × Page)} {g : Gathering}
    (h : Gathers w pages g) :
    Gathers w ((hits.map fun y => ((i, y.2), y.1.url)).foldl (count w allowlist) pages)
      (hits.foldl (Research.visit w allowlist i) g) := by
  induction hits generalizing pages g with
  | nil => exact h
  | cons y hits ih => exact ih (h.visit i y)

theorem Gathers.researchOne (h : Gathers w pages g) (x : String × ℕ) :
    Gathers w ((((searched w allowlist x).take 2).zipIdx 1 |>.map fun y =>
        ((x.2, y.2), y.1.url)).foldl (count w allowlist) pages)
      (researchOne w allowlist g x) := by
  unfold Research.researchOne
  simp only [search_output (x := x) h.tools]
  apply Gathers.foldl
  exact h.called allowlist (x.2, 0) "web_search" (queryArgs x.1) (w.moments (x.2, 0))
    fun _ _ => Iff.rfl

theorem gathers_gather (subQuestions : List String) :
    Gathers w (counted w allowlist (looked w allowlist subQuestions))
      (gather w allowlist subQuestions) := by
  have hfold : ∀ (xs : List (String × ℕ)) (pages : List (String × Page)) (g : Gathering),
      Gathers w pages g → Gathers w
        (xs.foldl (fun pages x => (((searched w allowlist x).take 2).zipIdx 1 |>.map fun y =>
          ((x.2, y.2), y.1.url)).foldl (count w allowlist) pages) pages)
        (xs.foldl (Research.researchOne w allowlist) g) := by
    intro xs
    induction xs with
    | nil => exact fun pages g => id
    | cons x xs ih => exact fun pages g h => ih _ _ (h.researchOne x)
  unfold counted looked gather
  rw [List.foldl_flatMap]
  apply hfold
  exact ⟨rfl, rfl, by simp, nofun, nofun, by simp [Gave]⟩

end Gather

section Cited

/-- The source is of this page: the gateway let a fetch of its URL through, which gave the page, and
the page has a text. -/
structure FetchedFrom (w : World) (run : ResearchRun) (s : Source) (page : Page) : Prop where
  audited : FetchAudited run.report.toolCalls s.url
  gave : Gave w run.fetches s.url page
  title : s.title = page.title
  retrieved : page.text ≠ ""

/-- The sources are numbered and distinct, each was fetched with a text, and the report is written
from the blocks of these texts. -/
structure Cited (w : World) (run : ResearchRun) : Prop where
  numbered : run.report.sources.map Source.n = List.range' 1 run.report.sources.length
  distinct : (run.report.sources.map Source.url).Nodup
  fetched : ∃ pages, List.Forall₂ (FetchedFrom w run) run.report.sources pages ∧
    run.request.prompt = reportPrompt run.report.question
      (List.zipWith (fun s page => sourceBlock s page.text) run.report.sources pages)

def Substantial (w : World) (allowlist : Finset String) (subQuestions : List String) : Prop :=
  ∀ url page, url ≠ "" →
    firstPage w allowlist (looked w allowlist subQuestions) url = some page → page.text ≠ ""

def Retrieves : Family → Place × String → Prop
  | .default, _ => True
  | .live lib replies, x =>
    PyText.strip x.2 ≠ "" ∧
      (∃ response, (safeGet lib (replies x.1).hops (PyText.strip x.2) maxRedirects).result =
        .ok response) ∧
      ∃ title text, (replies x.1).extracted = .ok (title, text) ∧ text ≠ ""

def Retrievable (w : World) (allowlist : Finset String) (subQuestions : List String) : Prop :=
  "fetch" ∈ allowlist → ∀ url x, url ≠ "" →
    (looked w allowlist subQuestions).find? (fun x => x.2 = url) = some x → Retrieves w.family x

variable {w : World} {allowlist : Finset String} {pages : List (String × Page)} {g : Gathering}

theorem Gathers.length (h : Gathers w pages g) : g.sources.length = pages.length := by
  rw [h.sources, List.length_map, List.length_zipIdx]

theorem Gathers.numbers (h : Gathers w pages g) :
    g.sources.map Source.n = List.range' 1 g.sources.length := by
  rw [h.length, h.sources, List.map_map]
  exact List.zipIdx_map_snd 1 pages

theorem Gathers.urls (h : Gathers w pages g) : g.sources.map Source.url = pages.map Prod.fst := by
  rw [h.sources, List.map_map]
  calc (pages.zipIdx 1).map (Source.url ∘ fun x => ⟨x.2, x.1.1, x.1.2.title⟩)
      = ((pages.zipIdx 1).map Prod.fst).map Prod.fst := by rw [List.map_map]; rfl
    _ = pages.map Prod.fst := by rw [List.zipIdx_map_fst]

theorem Gathers.each (h : Gathers w pages g) : List.Forall₂
    (fun s x => s.url = x.1 ∧ s.title = x.2.title ∧ x ∈ pages) g.sources pages := by
  rw [h.sources, List.forall₂_map_left_iff]
  have hsame : List.Forall₂ (fun y x => y.1.1 = x.1 ∧ y.1.2.title = x.2.title ∧ x ∈ pages)
      (pages.zipIdx 1) ((pages.zipIdx 1).map Prod.fst) := by
    rw [List.forall₂_map_right_iff, List.forall₂_same]
    intro y hy
    have hmem : y.1 ∈ (pages.zipIdx 1).map Prod.fst := List.mem_map_of_mem hy
    rw [List.zipIdx_map_fst] at hmem
    exact ⟨rfl, rfl, hmem⟩
  rwa [List.zipIdx_map_fst] at hsame

theorem map_eq_zipWith {A B D : Type} {R : A → B → Prop} {f : A → D} {k : A → B → D} {as : List A}
    {bs : List B} (h : List.Forall₂ R as bs) (hf : ∀ a b, R a b → f a = k a b) :
    as.map f = List.zipWith k as bs := by
  induction h with
  | nil => rfl
  | cons hab _ ih => rw [List.map_cons, List.zipWith_cons_cons, ih, hf _ _ hab]

theorem Gathers.blocks (h : Gathers w pages g) :
    g.sources.map (fun s => sourceBlock s (bodyOf g.bodies s.url)) =
      List.zipWith (fun s page => sourceBlock s page.text) g.sources (pages.map Prod.snd) := by
  rw [List.zipWith_map_right]
  apply map_eq_zipWith h.each
  rintro s x ⟨hurl, -, hmem⟩
  rw [hurl, h.bodies x hmem]

variable {lib : AutonomousLibrary J} {question : String} {allowed : Option (Finset String)}
  {plan report : Except Exc (StepOutput J)} {run : ResearchRun}

theorem runResearch_ok (h : runResearch lib w question allowed plan report = .ok run) :
    ∃ planned written subQuestions g, plan = .ok planned ∧ report = .ok written ∧
      Planners.parseSubquestions lib planned.text question = .ok subQuestions ∧
      g = gather w (allowed.getD defaultAllowlist) subQuestions ∧
      run.report.sources = g.sources ∧ run.report.toolCalls = g.gateway.audit ∧
      run.report.question = question ∧ run.request = reportRequest question g ∧
      run.fetches = g.fetches := by
  obtain ⟨planned, hplan, h⟩ := bind_eq_ok.mp h
  obtain ⟨subQuestions, hsubs, h⟩ := bind_eq_ok.mp h
  obtain ⟨written, hwritten, h⟩ := map_eq_ok.mp h
  cases h
  exact ⟨planned, written, subQuestions, _, hplan, hwritten, mapError_eq_ok.mp hsubs, rfl, rfl, rfl,
    rfl, rfl, rfl⟩

theorem cited_gathered {subQuestions : List String}
    (hsources : run.report.sources = g.sources) (hcalls : run.report.toolCalls = g.gateway.audit)
    (hquestion : run.report.question = question) (hrequest : run.request = reportRequest question g)
    (hfetches : run.fetches = g.fetches)
    (h : Gathers w (counted w allowlist (looked w allowlist subQuestions)) g) :
    Cited w run ↔ Substantial w allowlist subQuestions := by
  constructor
  · rintro ⟨-, -, pages, hpages, -⟩ url page hurl hfirst
    have hmem := mem_counted.mpr ⟨hurl, hfirst⟩
    obtain ⟨s, hs, hsurl, -⟩ := forall₂_right h.each _ hmem
    rw [hsources] at hpages
    obtain ⟨p, -, hfetched⟩ := forall₂_right hpages.flip s hs
    have hgave := hfetched.gave
    rw [hfetches, h.gave, hsurl] at hgave
    have hp := (mem_counted.mp hgave).2
    rw [hfirst] at hp
    rw [Option.some.inj hp]
    exact hfetched.retrieved
  · intro hsubstantial
    constructor
    · rw [hsources]
      exact h.numbers
    · rw [hsources, h.urls]
      exact counted_nodup _
    · refine ⟨(counted w allowlist (looked w allowlist subQuestions)).map Prod.snd, ?_, ?_⟩
      · rw [hsources, List.forall₂_map_right_iff]
        apply h.each.imp
        rintro s x ⟨hurl, htitle, hmem⟩
        obtain ⟨hne, hfirst⟩ := mem_counted.mp hmem
        constructor
        · rw [hcalls, hurl]
          exact h.audited x hmem
        · rw [hfetches, hurl, h.gave]
          exact hmem
        · exact htitle
        · exact hsubstantial x.1 x.2 hne hfirst
      · rw [hrequest, hsources, hquestion, reportRequest, h.blocks]

def Completes (lib : AutonomousLibrary J) (question : String) (plan report : Except Exc (StepOutput J))
    (subQuestions : List String) : Prop :=
  ∃ planned written, plan = .ok planned ∧ report = .ok written ∧
    Planners.parseSubquestions lib planned.text question = .ok subQuestions

theorem Completes.returns {subQuestions : List String}
    (h : Completes lib question plan report subQuestions) (w : World)
    (allowed : Option (Finset String)) :
    ∃ run, runResearch lib w question allowed plan report = .ok run := by
  obtain ⟨planned, written, rfl, rfl, hsubs⟩ := h
  unfold runResearch routerStep
  simp only [Except.bind, hsubs, Except.mapError, Except.map]
  exact ⟨_, rfl⟩

theorem cited_run (h : runResearch lib w question allowed plan report = .ok run) :
    ∃ subQuestions, Completes lib question plan report subQuestions ∧
      (Cited w run ↔ Substantial w (allowed.getD defaultAllowlist) subQuestions) := by
  obtain ⟨planned, written, subQuestions, g, hplan, hwritten, hsubs, rfl, hsources, hcalls,
    hquestion, hrequest, hfetches⟩ := runResearch_ok h
  refine ⟨subQuestions, ⟨planned, written, hplan, hwritten, hsubs⟩, ?_⟩
  exact cited_gathered hsources hcalls hquestion hrequest hfetches (gathers_gather subQuestions)

theorem Completes.unique {xs ys : List String} (hx : Completes lib question plan report xs)
    (hy : Completes lib question plan report ys) : xs = ys := by
  obtain ⟨planned, written, rfl, rfl, hxs⟩ := hx
  obtain ⟨planned', written', hplan, -, hys⟩ := hy
  cases hplan
  exact Except.ok.inj (hxs.symm.trans hys)

end Cited

section Families

variable {w : World} {allowlist : Finset String} {subQuestions : List String}

theorem corpusFetch_text {args : Json} {page : Page} (h : corpusFetch args = .ok page) :
    page.text ≠ "" := by
  have htexts : ∀ p ∈ corpus, p.text ≠ "" := by decide
  simp only [corpusFetch] at h
  cases hfind : corpus.find? fun page => page.url = argText "url" args with
  | none =>
    rw [hfind] at h
    cases h
  | some p =>
    rw [hfind] at h
    cases h
    exact htexts page (List.mem_of_find?_eq_some hfind)

theorem fetchBlocking_url (lib : UrlLibrary) (reply : LiveReply) (url : String) :
    fetchBlocking lib reply (urlArgs url) =
      if PyText.strip url = "" then ⟨PyText.strip url, "", ""⟩
      else match (safeGet lib reply.hops (PyText.strip url) maxRedirects).result with
        | .error _ => ⟨PyText.strip url, "", ""⟩
        | .ok _ => match reply.extracted with
          | .error _ => ⟨PyText.strip url, "", ""⟩
          | .ok (title, text) =>
            ⟨PyText.strip url, if title = "" then PyText.strip url else title, text⟩ := by
  unfold fetchBlocking
  generalize hurl : argText "url" (urlArgs url) = text
  obtain rfl : url = text := hurl
  rfl

theorem fetchBlocking_text (lib : UrlLibrary) (replies : Place → LiveReply) (x : Place × String) :
    (fetchBlocking lib (replies x.1) (urlArgs x.2)).text ≠ "" ↔ Retrieves (.live lib replies) x := by
  unfold Retrieves
  rw [fetchBlocking_url]
  by_cases hempty : PyText.strip x.2 = ""
  · simp [hempty]
  · rw [if_neg hempty]
    cases hget : (safeGet lib (replies x.1).hops (PyText.strip x.2) maxRedirects).result with
    | error e => simp [hget]
    | ok response =>
      cases hextracted : (replies x.1).extracted with
      | error e => simp [hextracted]
      | ok extracted => simp [hempty, hget, hextracted, Prod.ext_iff]

theorem firstPage_live {lib : UrlLibrary} {replies : Place → LiveReply}
    (hfamily : w.family = .live lib replies) (hfetch : "fetch" ∈ allowlist)
    (xs : List (Place × String)) (url : String) :
    firstPage w allowlist xs url = (xs.find? fun x => x.2 = url).map fun x =>
      fetchBlocking lib (replies x.1) (urlArgs x.2) := by
  induction xs with
  | nil => rfl
  | cons x xs ih =>
    unfold firstPage at ih ⊢
    rw [List.findSome?_cons, List.find?_cons]
    by_cases hx : x.2 = url
    · simp only [hx, if_true, decide_true]
      unfold fetchedPage
      rw [if_pos hfetch, hfamily]
      rfl
    · simp only [hx, if_false, decide_false]
      exact ih

theorem firstPage_fetched {xs : List (Place × String)} {url : String} {page : Page}
    (h : firstPage w allowlist xs url = some page) : ∃ x, fetchedPage w allowlist x = some page := by
  obtain ⟨x, -, hx⟩ := List.exists_of_findSome?_eq_some h
  split_ifs at hx
  exact ⟨x, hx⟩

theorem substantial_default (hfamily : w.family = .default) :
    Substantial w allowlist subQuestions := by
  intro url page _ hfirst
  obtain ⟨x, hx⟩ := firstPage_fetched hfirst
  have hok := fetchedPage_ok hx
  rw [hfamily] at hok
  exact corpusFetch_text hok

theorem substantial_denied (hfetch : "fetch" ∉ allowlist) : Substantial w allowlist subQuestions := by
  intro url page _ hfirst
  obtain ⟨x, hx⟩ := firstPage_fetched hfirst
  rw [fetchedPage, if_neg hfetch] at hx
  cases hx

theorem substantial_iff :
    Substantial w allowlist subQuestions ↔ Retrievable w allowlist subQuestions := by
  cases hfamily : w.family with
  | default =>
    apply iff_of_true (substantial_default hfamily)
    intro _ _ _ _ _
    rw [hfamily]
    trivial
  | live lib replies =>
    by_cases hfetch : "fetch" ∈ allowlist
    · unfold Substantial Retrievable
      simp only [firstPage_live hfamily hfetch, Option.map_eq_some_iff, hfamily]
      constructor
      · intro h _ url x hurl hfind
        exact (fetchBlocking_text lib replies x).mp (h url _ hurl ⟨x, hfind, rfl⟩)
      · rintro h url page hurl ⟨x, hfind, rfl⟩
        exact (fetchBlocking_text lib replies x).mpr (h hfetch url x hurl hfind)
    · exact iff_of_true (substantial_denied hfetch) fun h => absurd h hfetch

end Families

section Main

variable {J : Type}

theorem cited_iff (lib : AutonomousLibrary J) (w : World) (question : String)
    (allowlist : Option (Finset String)) (plan report : Except Exc (StepOutput J)) :
    (∀ run, runResearch lib w question allowlist plan report = .ok run → Cited w run) ↔
      ∀ subQuestions, Completes lib question plan report subQuestions →
        Retrievable w (allowlist.getD defaultAllowlist) subQuestions := by
  constructor
  · intro h subQuestions hcompletes
    obtain ⟨run, hrun⟩ := hcompletes.returns w allowlist
    obtain ⟨subs, hsubs, hcited⟩ := cited_run hrun
    rw [hcompletes.unique hsubs, ← substantial_iff]
    exact hcited.mp (h run hrun)
  · intro h run hrun
    obtain ⟨subQuestions, hcompletes, hcited⟩ := cited_run hrun
    apply hcited.mpr
    rw [substantial_iff]
    exact h subQuestions hcompletes

end Main

section Sample

def goneUrl : String := "https://gone.example/page"

def goneLibrary : UrlLibrary where
  isSpace := PyText.isSpace
  urlsplit url :=
    if url = goneUrl then .ok ⟨"https", some "gone.example", .ok none⟩
    else .error ⟨"ValueError", "Invalid URL"⟩
  join _ location := .ok location

def goneReply : LiveReply :=
  ⟨fun _ => ⟨fun _ _ => .ok ["93.184.216.34"], ["93.184.216.34"], .ok ⟨false, none⟩⟩,
    .error ⟨"HTTPStatusError", "Client error '404 Not Found'"⟩⟩

def goneWorld : World where
  family := .live goneLibrary fun _ => goneReply
  webSearch _ _ := .ok [⟨"Gone", goneUrl, ""⟩]
  kbSearch _ _ := .ok []
  moments _ := ⟨1, "2026-01-01T00:00:00Z", none⟩
  auditSink := false

def plainLibrary : AutonomousLibrary Unit where
  dumps _ := "\x7b\x7d"
  loads _ := .error .decode
  str _ := ""
  rememberInput _ := .error ""

def emptyAnswer : StepOutput Unit := ⟨"", [], "ollama", "qwen", .zero, some 0, 1, []⟩

/-- A page that is not there becomes a source with an empty text. -/
theorem gone_page_cited : ¬ ∀ run, runResearch plainLibrary goneWorld "question" none
    (.ok emptyAnswer) (.ok emptyAnswer) = .ok run → Cited goneWorld run := by
  intro h
  have hcompletes : Completes plainLibrary "question" (.ok emptyAnswer) (.ok emptyAnswer)
      ["question"] := ⟨emptyAnswer, emptyAnswer, rfl, rfl, rfl⟩
  obtain ⟨run, hrun⟩ := hcompletes.returns goneWorld none
  obtain ⟨subQuestions, hsubs, hcited⟩ := cited_run hrun
  have hretrievable := substantial_iff.mp (hcited.mp (h run hrun))
  rw [← hcompletes.unique hsubs] at hretrievable
  obtain ⟨-, -, title, text, hextracted, -⟩ :=
    hretrievable (by decide) goneUrl ((0, 1), goneUrl) (by decide) (by decide)
  cases hextracted

end Sample

end Workbench.Research
