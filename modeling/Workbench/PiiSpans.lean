import Workbench.CardFindings

namespace Workbench.Compliance

open PyJson Regexes

variable {py : PyChars}

def Overlap (m n : Match Char) : Prop := m.start < n.stop ∧ n.start < m.stop

structure Claims (py : PyChars) (text : List Char) (seen : List Span) (ts : List PiiType)
    (kept : List (PiiType × List (Match Char))) : Prop where
  types : kept.map Prod.fst = ts
  found : ∀ k ∈ kept, k.2.Sublist (findIter py.isWord (pattern py k.1) text)
  cards : ∀ k ∈ kept, k.1 = .creditCard → ∀ m ∈ k.2, luhnOk py m.group = .ok true
  free : ∀ m ∈ kept.flatMap Prod.snd, claimed seen m = false
  apart : (kept.flatMap Prod.snd).Pairwise fun m n => ¬ Overlap m n
  complete : ∀ front t ms back, kept = front ++ (t, ms) :: back →
    ∀ m ∈ findIter py.isWord (pattern py t) text,
      m ∈ ms ∨ t = .creditCard ∧ luhnOk py m.group = .ok false ∨
        claimed (seen ++ spans (front.flatMap Prod.snd ++ ms)) m = true

structure Tells (py : PyChars) (k : PiiType × List (Match Char)) (f : PiiFinding) : Prop where
  type : f.type = k.1
  count : f.count = k.2.length
  shown : ∃ m ∈ k.2.head?, maskOf py m.group = .ok f.maskedExample

structure Kept (py : PyChars) (t : PiiType) (ms : List (Match Char)) (seen : List Span)
    (kept : List (Match Char)) (claims : List Span) : Prop where
  claims : claims = seen ++ spans kept
  found : kept.Sublist ms
  cards : t = .creditCard → ∀ m ∈ kept, luhnOk py m.group = .ok true
  free : ∀ m ∈ kept, claimed seen m = false
  apart : kept.Pairwise fun m n => ¬ Overlap m n
  complete : ∀ m ∈ ms, m ∈ kept ∨ t = .creditCard ∧ luhnOk py m.group = .ok false ∨
    claimed (seen ++ spans kept) m = true

theorem claimed_append {xs ys : List Span} {m : Match Char} :
    claimed (xs ++ ys) m = true ↔ claimed xs m = true ∨ claimed ys m = true := by
  simp only [claimed, List.any_append, Bool.or_eq_true]

theorem claimed_spans {ms : List (Match Char)} {m : Match Char} :
    claimed (spans ms) m = true ↔ ∃ n ∈ ms, Overlap m n := by
  rw [claimed_iff]
  constructor
  · rintro ⟨s, hs, hoverlap⟩
    obtain ⟨n, hn, rfl⟩ := List.mem_map.mp hs
    exact ⟨n, hn, hoverlap⟩
  · rintro ⟨n, hn, hoverlap⟩
    exact ⟨_, List.mem_map_of_mem hn, hoverlap⟩

theorem free_append {xs ys : List Span} {m : Match Char} (h : claimed (xs ++ ys) m = false) :
    claimed xs m = false ∧ claimed ys m = false := by
  simpa only [claimed, List.any_append, Bool.or_eq_false_iff] using h

theorem Overlap.symm {m n : Match Char} (h : Overlap m n) : Overlap n m := ⟨h.2, h.1⟩

theorem apart_of_free {ms : List (Match Char)} {m : Match Char} (h : claimed (spans ms) m = false) :
    ∀ n ∈ ms, ¬ Overlap m n := by
  intro n hn hoverlap
  have hyes := claimed_spans.mpr ⟨n, hn, hoverlap⟩
  rw [h] at hyes
  cases hyes

theorem kept_of {t : PiiType} {ms kept : List (Match Char)} {seen claims : List Span}
    (h : keepMatches py t ms seen = .ok (kept, claims)) : Kept py t ms seen kept claims := by
  induction ms generalizing seen kept with
  | nil =>
    cases h
    constructor
    · exact (List.append_nil _).symm
    · exact List.Sublist.refl []
    · simp
    · simp
    · exact List.Pairwise.nil
    · simp
  | cons m ms ih =>
    rcases keepMatches_cons h with ⟨hpassed, h⟩ | ⟨later, rfl, hfree, hluhn, h⟩
    · have hrest := ih h
      refine ⟨hrest.claims, hrest.found.cons m, hrest.cards, hrest.free, hrest.apart, ?_⟩
      intro n hn
      rcases List.mem_cons.mp hn with rfl | hn
      · rcases hpassed with hclaimed | hfails
        · exact .inr (.inr (claimed_append.mpr (.inl hclaimed)))
        · exact .inr (.inl hfails)
      · exact hrest.complete n hn
    · have hrest := ih h
      have hone : ∀ n ∈ later, claimed seen n = false ∧ ¬ Overlap n m := by
        intro n hn
        obtain ⟨hseen, hm⟩ := free_append (hrest.free n hn)
        have hapart : ∀ k ∈ [m], ¬ Overlap n k := apart_of_free hm
        exact ⟨hseen, hapart m List.mem_cons_self⟩
      have hspans : seen ++ [(m.start, m.stop)] ++ spans later = seen ++ spans (m :: later) := by
        rw [List.append_assoc]
        rfl
      constructor
      · rw [hrest.claims, hspans]
      · exact hrest.found.cons_cons m
      · intro ht
        exact List.forall_mem_cons.mpr ⟨hluhn ht, hrest.cards ht⟩
      · exact List.forall_mem_cons.mpr ⟨hfree, fun n hn => (hone n hn).1⟩
      · exact List.pairwise_cons.mpr
          ⟨fun n hn hoverlap => (hone n hn).2 hoverlap.symm, hrest.apart⟩
      · intro n hn
        rcases List.mem_cons.mp hn with rfl | hn
        · exact .inl List.mem_cons_self
        · rw [← hspans]
          exact (hrest.complete n hn).imp_left (List.mem_cons_of_mem m)

theorem claims_of {text : List Char} {ts : List PiiType} {seen : List Span}
    {kept : List (PiiType × List (Match Char))} (h : keptOf py text ts seen = .ok kept) :
    Claims py text seen ts kept := by
  induction ts generalizing seen kept with
  | nil =>
    cases h
    constructor
    · rfl
    · simp
    · simp
    · simp
    · exact List.Pairwise.nil
    · intro front t ms back hempty
      exact absurd hempty (by simp)
  | cons t ts ih =>
    have htypes := keptOf_types h
    obtain ⟨⟨ms, claims⟩, hms, h⟩ := bind_eq_ok.mp h
    obtain ⟨rest, hrest, rfl⟩ := map_eq_ok.mp h
    have hkept := kept_of hms
    have hlater := ih hrest
    have hfree : ∀ m ∈ rest.flatMap Prod.snd,
        claimed seen m = false ∧ claimed (spans ms) m = false := by
      intro m hm
      have hno := hlater.free m hm
      rw [hkept.claims] at hno
      exact free_append hno
    constructor
    · exact htypes
    · exact List.forall_mem_cons.mpr ⟨hkept.found, hlater.found⟩
    · exact List.forall_mem_cons.mpr ⟨hkept.cards, hlater.cards⟩
    · rw [List.flatMap_cons]
      intro m hm
      rcases List.mem_append.mp hm with hm | hm
      · exact hkept.free m hm
      · exact (hfree m hm).1
    · rw [List.flatMap_cons, List.pairwise_append]
      refine ⟨hkept.apart, hlater.apart, ?_⟩
      intro m hm n hn hoverlap
      exact apart_of_free (hfree n hn).2 m hm hoverlap.symm
    · intro front u us back hsplit m hm
      cases front with
      | nil =>
        obtain ⟨hfirst, -⟩ := List.cons.inj hsplit
        cases hfirst
        exact hkept.complete m hm
      | cons first front =>
        obtain ⟨rfl, hback⟩ := List.cons.inj hsplit
        have hcomplete := hlater.complete front u us back hback m hm
        rw [hkept.claims] at hcomplete
        rw [List.flatMap_cons]
        simpa only [spans, List.map_append, List.append_assoc] using hcomplete

theorem findingOf_tells {t : PiiType} {kept : List (Match Char)} {findings : List PiiFinding}
    (h : findingOf py t kept = .ok findings) :
    List.Forall₂ (Tells py) ([(t, kept)].filter fun k => k.2 ≠ []) findings := by
  cases kept with
  | nil =>
    cases h
    exact .nil
  | cons m ms =>
    obtain ⟨masked, hmasked, rfl⟩ := map_eq_ok.mp h
    exact .cons ⟨rfl, rfl, m, rfl, hmasked⟩ .nil

theorem scanTypes_tells {text : List Char} {ts : List PiiType} {seen : List Span}
    {findings : List PiiFinding} (h : scanTypes py text ts seen = .ok findings) :
    ∃ kept, keptOf py text ts seen = .ok kept ∧
      List.Forall₂ (Tells py) (kept.filter fun k => k.2 ≠ []) findings := by
  induction ts generalizing seen findings with
  | nil =>
    cases h
    exact ⟨[], rfl, .nil⟩
  | cons t ts ih =>
    obtain ⟨⟨ms, claims⟩, hms, h⟩ := bind_eq_ok.mp h
    obtain ⟨found, hfound, h⟩ := bind_eq_ok.mp h
    obtain ⟨rest, hrest, rfl⟩ := map_eq_ok.mp h
    obtain ⟨kept, hkept, htells⟩ := ih hrest
    refine ⟨(t, ms) :: kept, ?_, ?_⟩
    · rw [keptOf, hms]
      change (keptOf py text ts claims).map _ = _
      rw [hkept]
      rfl
    · rw [← List.singleton_append, List.filter_append]
      exact List.rel_append (findingOf_tells hfound) htells

theorem weighed_kept {kept : List (PiiType × List (Match Char))} {findings : List PiiFinding}
    (h : List.Forall₂ (Tells py) (kept.filter fun k => k.2 ≠ []) findings) :
    (findings.map fun f => weight f.type * min f.count 3).sum =
      (kept.map fun k => weight k.1 * min k.2.length 3).sum := by
  induction kept generalizing findings with
  | nil =>
    cases h
    rfl
  | cons k kept ih =>
    by_cases hk : k.2 = []
    · rw [List.filter_cons_of_neg (by simpa using hk)] at h
      rw [ih h, List.map_cons, List.sum_cons, hk]
      simp
    · rw [List.filter_cons_of_pos (by simpa using hk)] at h
      cases h with
      | cons hfirst hrest =>
        rw [List.map_cons, List.map_cons, List.sum_cons, List.sum_cons, ih hrest, hfirst.type,
          hfirst.count]

theorem pii_findings_disjoint (py : PyChars) (text : String) (violations : List PolicyViolation) :
    ∃ findings kept, scanPii py text = .ok findings ∧ Claims py text.toList [] piiTypes kept ∧
      List.Forall₂ (Tells py) (kept.filter fun k => k.2 ≠ []) findings ∧
      (scoreRisk findings violations).1 =
        min ((kept.map fun k => weight k.1 * min k.2.length 3).sum +
          (violations.map fun v => severityWeight v.severity).sum) 100 := by
  obtain ⟨findings, hfindings⟩ := scanPii_fine py text
  obtain ⟨kept, hkept, htells⟩ := scanTypes_tells hfindings
  refine ⟨findings, kept, hfindings, claims_of hkept, htells, ?_⟩
  rw [← weighed_kept htells]
  rfl

end Workbench.Compliance
