import Workbench.CitedSources
import Workbench.RankedHits

namespace Workbench.Research

open AgentRuntime KeyedTable PyJson RankedHits ToolGateway

structure Words where
  lower : String → String
  isWord : Char → Bool

section Search

variable (words : Words)

def Words.findAll (text : String) : List (List Char) :=
  ((words.lower text).toList.splitOnP fun c => !words.isWord c).filter (· ≠ [])

def score (query text : String) : ℕ :=
  ((words.findAll text).filter fun w => (words.findAll query).contains w).length

def Page.shown (page : Page) : String := page.title ++ " " ++ page.text

def Page.hit (page : Page) : Hit := ⟨page.title, page.url, String.ofList (page.text.toList.take 160)⟩

def Page.passage (page : Page) : Passage := ⟨page.url, page.text⟩

def webSearch (args : Json) : List Hit :=
  let query := argText "query" args
  let ranked := corpus.mergeSort fun a b => score words query b.shown ≤ score words query a.shown
  ((ranked.filter fun page => 0 < score words query page.shown).take 3).map Page.hit

def kbSearch (args : Json) : List Passage :=
  let query := argText "query" args
  let hits := (corpus.filter fun page => 0 < score words query page.text).map Page.passage
  (hits.mergeSort fun a b => score words query b.text ≤ score words query a.text).take 3

end Search

section Corpus

theorem corpus_urls : (corpus.map Page.url).Nodup := by decide +kernel

theorem corpus_nodup : corpus.Nodup := corpus_urls.of_map

theorem find_url {pages : List Page} (h : (pages.map Page.url).Nodup) {page : Page}
    (hp : page ∈ pages) : (pages.find? fun p => p.url = page.url) = some page := by
  induction pages with
  | nil => cases hp
  | cons first pages ih =>
    rw [List.map_cons, List.nodup_cons] at h
    rcases List.mem_cons.mp hp with rfl | hp
    · simp
    · have hne : first.url ≠ page.url := by
        intro hsame
        exact h.1 (hsame ▸ List.mem_map_of_mem hp)
      rw [List.find?_cons_of_neg (by simpa using hne)]
      exact ih h.2 hp

theorem corpusFetch_page {page : Page} (h : page ∈ corpus) :
    corpusFetch (urlArgs page.url) = .ok page := by
  have hfind := find_url corpus_urls h
  unfold corpusFetch
  simp only [argText, urlArgs, field, List.lookup_cons, beq_self_eq_true, hfind]

theorem corpusFetch_ok {url : String} {page : Page} (h : corpusFetch (urlArgs url) = .ok page) :
    page ∈ corpus ∧ page.url = url := by
  unfold corpusFetch at h
  simp only [argText, urlArgs, field, List.lookup_cons, beq_self_eq_true] at h
  split at h
  · rename_i found hfound
    cases h
    exact ⟨List.mem_of_find?_eq_some hfound, by simpa using List.find?_some hfound⟩
  · cases h

variable (words : Words)

theorem webSearch_top (query : String) : ∃ pages,
    IsTop (fun page : Page => score words query page.shown) 3 corpus pages ∧
      webSearch words (queryArgs query) = pages.map Page.hit :=
  ⟨_, isTop_filter_sort 3 corpus_nodup, rfl⟩

theorem kbSearch_top (query : String) : ∃ pages,
    IsTop (fun page : Page => score words query page.text) 3 corpus pages ∧
      kbSearch words (queryArgs query) = pages.map Page.passage := by
  refine ⟨_, isTop_sort_filter 3 corpus_nodup, ?_⟩
  rw [List.map_take, List.map_mergeSort (s := fun a b : Passage =>
    decide (score words query b.text ≤ score words query a.text))]
  · rfl
  · intro a _ b _
    rfl

theorem corpus_hits_best (query : String) :
    (∃ pages, IsTop (fun page : Page => score words query page.shown) 3 corpus pages ∧
      webSearch words (queryArgs query) = pages.map Page.hit ∧
      ∀ page ∈ pages, corpusFetch (urlArgs page.url) = .ok page) ∧
    ∃ pages, IsTop (fun page : Page => score words query page.text) 3 corpus pages ∧
      kbSearch words (queryArgs query) = pages.map Page.passage ∧
      ∀ page ∈ pages, corpusFetch (urlArgs page.url) = .ok page := by
  obtain ⟨found, hfound, hsearch⟩ := webSearch_top words query
  obtain ⟨passages, hpassages, hkb⟩ := kbSearch_top words query
  exact ⟨⟨found, hfound, hsearch, fun page hp => corpusFetch_page (hfound.scored page hp).1⟩,
    ⟨passages, hpassages, hkb, fun page hp => corpusFetch_page (hpassages.scored page hp).1⟩⟩

end Corpus

section Research

def corpusWorld (words : Words) (moments : Place → Moment) (auditSink : Bool) : World where
  family := .default
  webSearch _ args := .ok (webSearch words args)
  kbSearch _ args := .ok (kbSearch words args)
  moments := moments
  auditSink := auditSink

def topUrls (words : Words) (subQuestions : List String) : List String :=
  subQuestions.flatMap fun query => ((webSearch words (queryArgs query)).take 2).map Hit.url

variable {words : Words} {moments : Place → Moment} {auditSink : Bool}

theorem searched_corpus (x : String × ℕ) :
    searched (corpusWorld words moments auditSink) defaultAllowlist x =
      webSearch words (queryArgs x.1) := by
  unfold searched
  rw [if_pos (by decide)]
  rfl

theorem looked_urls (subQuestions : List String) :
    (looked (corpusWorld words moments auditSink) defaultAllowlist subQuestions).map Prod.snd =
      topUrls words subQuestions := by
  unfold looked topUrls
  rw [List.map_flatMap]
  have hone : ∀ x : String × ℕ,
      ((((searched (corpusWorld words moments auditSink) defaultAllowlist x).take 2).zipIdx 1).map
        fun y => ((x.2, y.2), y.1.url)).map Prod.snd =
      ((webSearch words (queryArgs x.1)).take 2).map Hit.url := by
    intro x
    rw [searched_corpus, List.map_map]
    calc _ = ((((webSearch words (queryArgs x.1)).take 2).zipIdx 1).map Prod.fst).map Hit.url := by
          rw [List.map_map]
          rfl
      _ = _ := by rw [List.zipIdx_map_fst]
  simp only [hone]
  calc _ = ((subQuestions.zipIdx).map Prod.fst).flatMap
        fun query => ((webSearch words (queryArgs query)).take 2).map Hit.url := by
        rw [List.flatMap_map]
    _ = _ := by rw [List.zipIdx_map_fst]

theorem topUrls_fetched {subQuestions : List String} {url : String}
    (h : url ∈ topUrls words subQuestions) : url ≠ "" ∧ ∃ page ∈ corpus,
      page.url = url ∧ corpusFetch (urlArgs url) = .ok page := by
  obtain ⟨query, -, hmem⟩ := List.mem_flatMap.mp h
  obtain ⟨hit, hhit, rfl⟩ := List.mem_map.mp hmem
  obtain ⟨pages, htop, hsearch⟩ := webSearch_top words query
  rw [hsearch] at hhit
  obtain ⟨page, hpage, rfl⟩ := List.mem_map.mp (List.mem_of_mem_take hhit)
  have hcorpus := (htop.scored page hpage).1
  have hurls : ∀ page ∈ corpus, page.url ≠ "" := by decide +kernel
  exact ⟨hurls page hcorpus, page, hcorpus, rfl, corpusFetch_page hcorpus⟩

theorem counted_urls {w : World} {allowlist : Finset String} {xs : List (Place × String)}
    (h : ∀ x ∈ xs, x.2 ≠ "" ∧ ∃ page, fetchedPage w allowlist x = some page) :
    (counted w allowlist xs).map Prod.fst = (xs.map Prod.snd).eraseDups := by
  induction xs using List.reverseRecOn with
  | nil => rfl
  | append_singleton xs x ih =>
    have ih := ih fun y hy => h y (List.mem_append_left _ hy)
    obtain ⟨hne, page, hpage⟩ := h x (List.mem_append_right _ List.mem_cons_self)
    rw [counted_snoc, count, List.map_append, List.eraseDups_append, List.map_singleton, ih]
    by_cases hthere : x.2 ∈ xs.map Prod.snd
    · rw [if_pos (.inr (List.mem_eraseDups.mpr hthere)), ih]
      simp [List.removeAll, hthere]
    · rw [if_neg (by simp [hne, List.mem_eraseDups, hthere]), hpage]
      simp [List.removeAll, hthere, ih, List.eraseDups_cons]

structure FromCorpus (words : Words) (run : ResearchRun) : Prop where
  urls : run.report.sources.map Source.url = (topUrls words run.report.subQuestions).eraseDups
  pages : ∃ pages, List.Forall₂
      (fun s page => page ∈ corpus ∧ s.url = page.url ∧ s.title = page.title)
        run.report.sources pages ∧
    run.request.prompt = reportPrompt run.report.question
      (List.zipWith (fun s page => sourceBlock s page.text) run.report.sources pages)

theorem fromCorpus_gathered {run : ResearchRun} {g : Gathering}
    (hg : g = gather (corpusWorld words moments auditSink) defaultAllowlist run.report.subQuestions)
    (hsources : run.report.sources = g.sources)
    (hrequest : run.request = reportRequest run.report.question g) : FromCorpus words run := by
  have h : Gathers (corpusWorld words moments auditSink) (counted (corpusWorld words moments auditSink)
      defaultAllowlist (looked (corpusWorld words moments auditSink) defaultAllowlist
        run.report.subQuestions)) g := by
    rw [hg]
    exact gathers_gather run.report.subQuestions
  constructor
  · rw [hsources, h.urls, counted_urls, looked_urls]
    intro x hx
    have hmem := List.mem_map_of_mem (f := Prod.snd) hx
    rw [looked_urls] at hmem
    obtain ⟨hne, page, -, -, hfetch⟩ := topUrls_fetched hmem
    refine ⟨hne, page, ?_⟩
    rw [fetchedPage, if_pos (by decide)]
    change (corpusFetch (urlArgs x.2)).toOption = _
    rw [hfetch]
    rfl
  · refine ⟨(counted (corpusWorld words moments auditSink) defaultAllowlist
      (looked (corpusWorld words moments auditSink) defaultAllowlist
        run.report.subQuestions)).map Prod.snd, ?_, ?_⟩
    · rw [hsources, List.forall₂_map_right_iff]
      apply h.each.imp
      rintro s x ⟨hurl, htitle, hmem⟩
      obtain ⟨y, -, hy⟩ := List.exists_of_findSome?_eq_some (mem_counted.mp hmem).2
      split_ifs at hy with hsame
      obtain ⟨hcorpus, hpage⟩ := corpusFetch_ok (fetchedPage_ok hy)
      exact ⟨hcorpus, by rw [hurl, ← hsame, hpage], htitle⟩
    · rw [hrequest, hsources, reportRequest, h.blocks]

/-- With the built-in connectors, whatever the planner answers. -/
theorem corpus_research_cites_top_hits {J : Type} {lib : AutonomousLibrary J} {question : String}
    {plan report : Except Exc (StepOutput J)} {run : ResearchRun}
    (h : runResearch lib (corpusWorld words moments auditSink) question none plan report = .ok run) :
    FromCorpus words run := by
  obtain ⟨planned, hplan, h⟩ := bind_eq_ok.mp h
  obtain ⟨subQuestions, hsubs, h⟩ := bind_eq_ok.mp h
  obtain ⟨written, hwritten, h⟩ := map_eq_ok.mp h
  cases h
  exact fromCorpus_gathered rfl rfl rfl

def asciiWords : Words := ⟨String.toLower, fun c => c.isAlphanum || c = '_'⟩

theorem fallback_question_cited : ∃ run,
    runResearch plainLibrary (corpusWorld asciiWords (fun _ => ⟨1, "2026-01-01T00:00:00Z", none⟩) false)
        "How are agents evaluated?" none (.ok emptyAnswer) (.ok emptyAnswer) = .ok run ∧
      FromCorpus asciiWords run := by
  have hcompletes : Completes plainLibrary "How are agents evaluated?" (.ok emptyAnswer)
      (.ok emptyAnswer) ["How are agents evaluated?"] := ⟨emptyAnswer, emptyAnswer, rfl, rfl, rfl⟩
  obtain ⟨run, hrun⟩ := hcompletes.returns
    (corpusWorld asciiWords (fun _ => ⟨1, "2026-01-01T00:00:00Z", none⟩) false) none
  exact ⟨run, hrun, corpus_research_cites_top_hits hrun⟩

end Research

end Workbench.Research
