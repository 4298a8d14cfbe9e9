import Workbench.RouterHealth
import Mathlib.Data.List.Induction
import Mathlib.Tactic.Linarith

namespace Workbench.ModelRouter

open AgentRuntime PyJson Transitions

variable {C : Type} {settings : Settings}

def clientStatus (status : ℕ) : Bool := 400 ≤ status && status < 500 && status ≠ 429

def Reason.clientError : Reason → Bool
  | .http status _ => clientStatus status
  | .apiError _ _ (some status) => clientStatus status
  | _ => false

def outageStatus (status : ℕ) : Bool := status = 429 || 500 ≤ status

def Reason.outage : Reason → Bool
  | .transport _ => true
  | .http status _ => outageStatus status
  | .apiError _ _ none => true
  | .apiError _ _ (some status) => outageStatus status
  | .malformed _ => false
  | .onlyThought _ => false

def Action.call : Action C → C
  | .begins c _ _ _ => c
  | .finishes c _ _ _ => c

def Rejected (b : C) (as : List (Action C)) : Prop :=
  ∀ result now latencyMs, .finishes b result now latencyMs ∈ as →
    ∃ e, result = .error (.providerCall e) ∧ e.reason.clientError = true

structure Ordered (b : C) (log : List (Finished C)) : Prop where
  sorted : log.Pairwise fun f g => f.time ≤ g.time
  fell : ∀ f ∈ log, f.call = b → ∃ e, f.result = .error (.providerCall e)

theorem mem_of_lastOn {log : List (Finished C)} {provider : String} {f : Finished C}
    (h : lastOn log provider = some f) : f ∈ log :=
  List.mem_of_mem_filter (List.mem_of_getLast? h)

theorem Ordered.init {b : C} {log : List (Finished C)} {f : Finished C} (h : Ordered b (log ++ [f])) :
    Ordered b log where
  sorted := (List.pairwise_append.mp h.sorted).1
  fell g hg := h.fell g (List.mem_append_left _ hg)

theorem filters_agree {α : Type} {p q : α → Bool} (h : ∀ x, p x = true → q x = true) {l : List α}
    (hlen : (l.filter p).length = (l.filter q).length) : ∀ x ∈ l, p x = q x := by
  have hsame : l.filter p = l.filter q := (List.monotone_filter_right l h).eq_of_length hlen
  intro x hx
  apply Bool.eq_iff_iff.mpr
  constructor
  · exact h x
  · intro hq
    have hmem : x ∈ l.filter p := hsame ▸ List.mem_filter_of_mem hx hq
    exact List.of_mem_filter hmem

def preferred (p : Candidate × ℚ → Bool) (rs : List (Candidate × ℚ)) : List Candidate :=
  if (rs.filter p).map Prod.fst = [] then rs.map Prod.fst else (rs.filter p).map Prod.fst

theorem preferred_eq_iff {p q : Candidate × ℚ → Bool} (h : ∀ r, p r = true → q r = true)
    (rs : List (Candidate × ℚ)) : preferred p rs = preferred q rs ↔
      (∀ r ∈ rs, p r = q r) ∨ ∀ r ∈ rs, p r = false ∧ q r = true := by
  have hsub := List.monotone_filter_right rs h
  have hnone : ∀ {p : Candidate × ℚ → Bool}, (rs.filter p).map Prod.fst = [] →
      ∀ r ∈ rs, p r = false := by
    intro p hp r hr
    simpa using List.filter_eq_nil_iff.mp (List.map_eq_nil_iff.mp hp) r hr
  unfold preferred
  constructor
  · intro heq
    split_ifs at heq with hp hq hq
    · left
      intro r hr
      rw [hnone hp r hr, hnone hq r hr]
    · right
      have hlen := congrArg List.length heq
      rw [List.length_map, List.length_map] at hlen
      intro r hr
      refine ⟨hnone hp r hr, ?_⟩
      have hall : rs.filter q = rs := (List.filter_sublist).eq_of_length hlen.symm
      exact List.of_mem_filter (hall.symm ▸ hr)
    · left
      rw [List.map_eq_nil_iff] at hq
      rw [hq] at hsub
      exact absurd (by rw [List.sublist_nil.mp hsub]; rfl) hp
    · left
      have hlen := congrArg List.length heq
      rw [List.length_map, List.length_map] at hlen
      exact filters_agree h hlen
  · rintro (hsame | hsplit)
    · rw [List.filter_congr hsame]
    · have hp : rs.filter p = [] := by
        apply List.filter_eq_nil_iff.mpr
        intro r hr
        rw [(hsplit r hr).1]
        exact Bool.false_ne_true
      have hq : rs.filter q = rs := List.filter_eq_self.mpr fun r hr => (hsplit r hr).2
      rw [hp, hq, List.map_nil, if_pos rfl]
      split_ifs <;> rfl

structure Sound (b : C) (s : State C) : Prop where
  ordered : Ordered b s.log
  timed : ∀ f ∈ s.log, f.time ≤ s.clock
  mirrors : Mirrors s

theorem sound_created (b : C) (clock : ℚ) : Sound b (created C clock) where
  ordered := ⟨List.Pairwise.nil, nofun⟩
  timed := nofun
  mirrors _ := rfl

theorem clock_finish (s : State C) (c : C) (provider : String) (result : Result) (now : ℚ) :
    (s.finish c provider result now).clock = now := by
  unfold State.finish State.settle State.markUnhealthy State.recover
  split
  · rfl
  · split_ifs <;> rfl
  · rfl

theorem candidates_eq_preferred (s : State C) {chain : List Candidate} {readings : List ℚ}
    (hlen : readings.length = chain.length) : candidates s chain readings =
      preferred (fun r => s.isHealthy r.1.provider r.2) (chain.zip readings) := by
  unfold candidates healthyCandidates preferred
  rw [List.map_fst_zip hlen.ge]

theorem Rejected.head {b : C} {a : Action C} {as : List (Action C)} (h : Rejected b (a :: as)) :
    Rejected b [a] := by
  intro result now latencyMs ha
  rw [List.mem_singleton] at ha
  exact h result now latencyMs (ha ▸ List.mem_cons_self)

theorem Rejected.tail {b : C} {a : Action C} {as : List (Action C)} (h : Rejected b (a :: as)) :
    Rejected b as := fun result now latencyMs ha => h result now latencyMs (List.mem_cons_of_mem _ ha)

section Logs

variable [DecidableEq C] (b : C)

def logWithout (log : List (Finished C)) : List (Finished C) := log.filter fun f => f.call ≠ b

def Blamed (log : List (Finished C)) (provider : String) (now : ℚ) : Prop :=
  Cooling log provider now ∧ ¬ Cooling (logWithout b log) provider now

def Spares (settings : Settings) (s : State C) : Action C → Prop
  | .begins c complexity enabled readings => c ≠ b →
    (∀ r ∈ (chain settings enabled complexity).zip readings, ¬ Blamed b s.log r.1.provider r.2) ∨
      ∀ r ∈ (chain settings enabled complexity).zip readings, Blamed b s.log r.1.provider r.2
  | .finishes _ _ _ _ => True

def withoutCall (as : List (Action C)) : List (Action C) := as.filter fun a => a.call ≠ b

def Undisturbed (settings : Settings) (s' : State C) (as : List (Action C)) (t : State C) : Prop :=
  ∃ t', exec (step settings) s' (withoutCall b as) = some t' ∧
    ∀ c, c ≠ b → t'.calls c = t.calls c

variable {b}

theorem Ordered.cooling {log : List (Finished C)} (h : Ordered b log) {provider : String} {now : ℚ}
    (hc : Cooling (logWithout b log) provider now) : Cooling log provider now := by
  induction log using List.reverseRecOn with
  | nil => exact hc
  | append_singleton log g ih =>
    obtain ⟨f, e, hlast, hf, hnow⟩ := hc
    by_cases hb : g.call = b
    · have hwithout : logWithout b (log ++ [g]) = logWithout b log := by
        simp [logWithout, hb]
      rw [hwithout] at hlast
      by_cases hg : g.provider = provider
      · obtain ⟨e', he'⟩ := h.fell g (by simp) hb
        have hle : f.time ≤ g.time :=
          (List.pairwise_append.mp h.sorted).2.2 f (List.mem_of_mem_filter (mem_of_lastOn hlast)) g
            (List.mem_singleton_self g)
        refine ⟨g, e', ?_, he', ?_⟩
        · rw [lastOn_concat, if_pos ⟨hg, by simp [Finished.conclusive, he']⟩]
        · linarith
      · obtain ⟨f', e', hlast', hf', hnow'⟩ := ih h.init ⟨f, e, hlast, hf, hnow⟩
        refine ⟨f', e', ?_, hf', hnow'⟩
        rw [lastOn_concat, if_neg (fun hboth => hg hboth.1)]
        exact hlast'
    · have hwithout : logWithout b (log ++ [g]) = logWithout b log ++ [g] := by
        simp [logWithout, hb]
      rw [hwithout, lastOn_concat] at hlast
      split_ifs at hlast with hg
      · refine ⟨f, e, ?_, hf, hnow⟩
        rw [lastOn_concat, if_pos hg]
        exact hlast
      · obtain ⟨f', e', hlast', hf', hnow'⟩ := ih h.init ⟨f, e, hlast, hf, hnow⟩
        refine ⟨f', e', ?_, hf', hnow'⟩
        rw [lastOn_concat, if_neg hg]
        exact hlast'

structure Beside (b : C) (s s' : State C) : Prop where
  calls : ∀ c, c ≠ b → s'.calls c = s.calls c
  log : s'.log = logWithout b s.log
  mirrors : Mirrors s'

theorem clock_le_getLastD {clock : ℚ} {readings : List ℚ}
    (h : (clock :: readings).Pairwise (· ≤ ·)) : clock ≤ readings.getLastD clock := by
  rw [List.getLastD_eq_getLast?]
  cases hlast : readings.getLast? with
  | none => exact le_refl clock
  | some now => exact (List.pairwise_cons.mp h).1 now (List.mem_of_getLast? hlast)

theorem Sound.step {s t : State C} {a : Action C} (h : Sound b s) (ht : Ticks settings s a)
    (hr : Rejected b [a]) (hs : step settings s a = some t) : Sound b t := by
  cases step_cases hs with
  | begins c complexity enabled readings hc =>
    refine ⟨h.ordered, ?_, h.mirrors⟩
    intro f hf
    exact (h.timed f hf).trans (clock_le_getLastD ht.2)
  | finishes c call current model rest result now latencyMs hc hp =>
    have hlog := log_finish s c current.provider result now
    have htimed : ∀ f ∈ s.log, f.time ≤ now := fun f hf => (h.timed f hf).trans ht
    refine ⟨⟨?_, ?_⟩, ?_, h.mirrors.finish c current.provider result now⟩
    · change ((s.finish c current.provider result now).log).Pairwise _
      rw [hlog]
      apply List.pairwise_append.mpr
      refine ⟨h.ordered.sorted, List.pairwise_singleton _ _, ?_⟩
      intro f hf g hg
      rw [List.mem_singleton.mp hg]
      exact htimed f hf
    · change ∀ f ∈ (s.finish c current.provider result now).log, _
      rw [hlog]
      intro f hf hb
      rcases List.mem_append.mp hf with hf | hf
      · exact h.ordered.fell f hf hb
      · rw [List.mem_singleton.mp hf] at hb ⊢
        obtain rfl : c = b := hb
        obtain ⟨e, he, _⟩ := hr result now latencyMs (List.mem_singleton_self _)
        exact ⟨e, he⟩
    · change ∀ f ∈ (s.finish c current.provider result now).log,
        f.time ≤ (s.finish c current.provider result now).clock
      rw [hlog, clock_finish]
      intro f hf
      rcases List.mem_append.mp hf with hf | hf
      · exact htimed f hf
      · rw [List.mem_singleton.mp hf]

theorem Beside.own {s s' t : State C} {a : Action C} (h : Beside b s s') (ha : a.call = b)
    (hs : step settings s a = some t) : Beside b t s' := by
  cases step_cases hs with
  | begins c complexity enabled readings hc =>
    obtain rfl : c = b := ha
    refine ⟨?_, h.log, h.mirrors⟩
    intro c' hne
    rw [calls_set, if_neg hne]
    exact h.calls c' hne
  | finishes c call current model rest result now latencyMs hc hp =>
    obtain rfl : c = b := ha
    refine ⟨?_, ?_, h.mirrors⟩
    · intro c' hne
      rw [calls_set, if_neg hne, calls_finish]
      exact h.calls c' hne
    · change s'.log = logWithout c (s.finish c current.provider result now).log
      rw [log_finish, h.log]
      simp [logWithout]

theorem Beside.finishes {s s' t : State C} {c : C} {result : Result} {now : ℚ} {latencyMs : ℤ}
    (h : Beside b s s') (hne : c ≠ b)
    (hs : step settings s (.finishes c result now latencyMs) = some t) :
    ∃ t', step settings s' (.finishes c result now latencyMs) = some t' ∧ Beside b t t' := by
  cases step_cases hs with
  | finishes c call current model rest result now latencyMs hc hp =>
    have hc' : s'.calls c = some call := by
      rw [h.calls c hne]
      exact hc
    refine ⟨(s'.finish c current.provider result now).set c
      (call.finish settings current model rest result latencyMs), by simp [step, hc', hp], ?_, ?_,
      h.mirrors.finish c current.provider result now⟩
    · intro c' hne'
      rw [calls_set, calls_set, calls_finish, calls_finish]
      split_ifs
      · rfl
      · exact h.calls c' hne'
    · change (s'.finish c current.provider result now).log =
        logWithout b (s.finish c current.provider result now).log
      rw [log_finish, log_finish, h.log]
      simp [logWithout, hne]

theorem Beside.candidates_iff {s s' : State C} (h : Beside b s s') (hs : Sound b s)
    {chain : List Candidate} {readings : List ℚ} (hlen : readings.length = chain.length) :
    candidates s chain readings = candidates s' chain readings ↔
      (∀ r ∈ chain.zip readings, ¬ Blamed b s.log r.1.provider r.2) ∨
        ∀ r ∈ chain.zip readings, Blamed b s.log r.1.provider r.2 := by
  have hcool : ∀ provider now, s.isHealthy provider now = false ↔ Cooling s.log provider now :=
    isHealthy_iff hs.mirrors
  have hcool' : ∀ provider now, s'.isHealthy provider now = false ↔
      Cooling (logWithout b s.log) provider now := by
    rw [← h.log]
    exact isHealthy_iff h.mirrors
  have hmono : ∀ provider now, s.isHealthy provider now = true → s'.isHealthy provider now = true := by
    intro provider now
    rw [← not_imp_not, Bool.not_eq_true, Bool.not_eq_true, hcool, hcool']
    exact hs.ordered.cooling
  have hblamed : ∀ provider now, Blamed b s.log provider now ↔
      s.isHealthy provider now = false ∧ s'.isHealthy provider now = true := by
    intro provider now
    rw [Blamed, ← hcool, ← hcool', Bool.not_eq_false]
  rw [candidates_eq_preferred s hlen, candidates_eq_preferred s' hlen,
    preferred_eq_iff (fun r => hmono r.1.provider r.2)]
  apply or_congr
  · apply forall₂_congr
    intro r _
    rw [hblamed]
    have hr := hmono r.1.provider r.2
    generalize s.isHealthy r.1.provider r.2 = healthy at hr
    generalize s'.isHealthy r.1.provider r.2 = healthy' at hr
    cases healthy with
    | true => simp [hr rfl]
    | false => cases healthy' <;> simp
  · apply forall₂_congr
    intro r _
    exact (hblamed _ _).symm

theorem Beside.begins {s s' t : State C} {c : C} {complexity : Complexity}
    {enabled : Provider → Bool} {readings : List ℚ} (h : Beside b s s') (hne : c ≠ b)
    (hs : step settings s (.begins c complexity enabled readings) = some t) :
    step settings s' (.begins c complexity enabled readings) =
      some ({ s' with clock := readings.getLastD s'.clock }.set c
        (begun settings s' complexity enabled readings)) ∧
    t.calls c = some (begun settings s complexity enabled readings) ∧
    (begun settings s' complexity enabled readings = begun settings s complexity enabled readings →
      Beside b t ({ s' with clock := readings.getLastD s'.clock }.set c
        (begun settings s' complexity enabled readings))) := by
  cases step_cases hs with
  | begins c complexity enabled readings hc =>
    have hc' : s'.calls c = none := by
      rw [h.calls c hne]
      exact hc
    refine ⟨by simp [step, hc'], by rw [calls_set, if_pos rfl], ?_⟩
    intro hsame
    refine ⟨?_, h.log, h.mirrors⟩
    intro c' hne'
    rw [calls_set, calls_set, hsame]
    split_ifs
    · rfl
    · exact h.calls c' hne'

theorem candidates_kept {s t : State C} {as : List (Action C)} (h : exec (step settings) s as = some t)
    {c : C} {call : Call} (hc : s.calls c = some call) :
    ∃ call', t.calls c = some call' ∧ call'.candidates = call.candidates := by
  induction as generalizing s call with
  | nil =>
    cases h
    exact ⟨call, hc, rfl⟩
  | cons a as ih =>
    obtain ⟨u, hu, hrest⟩ := Option.bind_eq_some_iff.mp h
    have hkept : ∃ call', u.calls c = some call' ∧ call'.candidates = call.candidates := by
      cases step_cases hu with
      | begins c' complexity enabled readings hc' =>
        refine ⟨call, ?_, rfl⟩
        rw [calls_set, if_neg]
        · exact hc
        · rintro rfl
          rw [hc] at hc'
          cases hc'
      | finishes c' call' current model rest result now latencyMs hc' hp =>
        rw [calls_set, calls_finish]
        split_ifs with he
        · subst he
          obtain rfl := Option.some.inj (hc.symm.trans hc')
          refine ⟨_, rfl, ?_⟩
          unfold Call.finish
          split <;> rfl
        · exact ⟨call, hc, rfl⟩
    obtain ⟨call', hcall', hsame⟩ := hkept
    obtain ⟨last, hlast, hsame'⟩ := ih hrest hcall'
    exact ⟨last, hlast, hsame'.trans hsame⟩

theorem Beside.undisturbed_iff {s s' t : State C} {as : List (Action C)} (h : Beside b s s')
    (hs : Sound b s) (hexec : exec (ModelRouter.step settings) s as = some t)
    (hticks : Obeys (ModelRouter.step settings) (Ticks settings) s as) (hr : Rejected b as) :
    Undisturbed b settings s' as t ↔ Obeys (ModelRouter.step settings) (Spares b settings) s as := by
  induction as generalizing s s' with
  | nil =>
    cases hexec
    exact ⟨fun _ => trivial, fun _ => ⟨s', rfl, h.calls⟩⟩
  | cons a as ih =>
    obtain ⟨u, hu, hrest⟩ := Option.bind_eq_some_iff.mp hexec
    obtain ⟨hta, htrest⟩ := hticks
    have hsu : Sound b u := hs.step hta hr.head hu
    -- once the runs are beside each other again, the rest is for the rest to tell
    have hgo : ∀ {u'}, Beside b u u' → (Undisturbed b settings u' as t ↔
        ∀ v ∈ ModelRouter.step settings s a, Obeys (ModelRouter.step settings) (Spares b settings) v as) := by
      intro u' hbeside
      rw [ih hbeside hsu hrest (htrest u hu) hr.tail]
      constructor
      · intro hobeys v hv
        obtain rfl := Option.some.inj (hu.symm.trans hv)
        exact hobeys
      · intro hobeys
        exact hobeys u hu
    by_cases hb : a.call = b
    · have hguard : Spares b settings s a := by
        cases a with
        | begins c complexity enabled readings => exact fun hne => absurd hb hne
        | finishes c result now latencyMs => trivial
      have hdrop : withoutCall b (a :: as) = withoutCall b as := by simp [withoutCall, hb]
      rw [Undisturbed, hdrop, Obeys, and_iff_right hguard]
      exact hgo (h.own hb hu)
    · have hkeep : withoutCall b (a :: as) = a :: withoutCall b as := by simp [withoutCall, hb]
      rw [Undisturbed, hkeep, Obeys]
      simp only [exec]
      cases a with
      | finishes c result now latencyMs =>
        have hne : c ≠ b := hb
        obtain ⟨u', hu', hbeside⟩ := h.finishes hne hu
        rw [hu', Option.bind_some, and_iff_right (show Spares b settings s (.finishes c _ _ _) from trivial)]
        exact hgo hbeside
      | begins c complexity enabled readings =>
        have hne : c ≠ b := hb
        obtain ⟨hu', hcall, hbeside⟩ := h.begins hne hu
        have hiff := h.candidates_iff hs hta.1
        rw [hu', Option.bind_some]
        constructor
        · rintro ⟨t', ht', hagree⟩
          obtain ⟨last, hlast, hkept⟩ := candidates_kept hrest hcall
          obtain ⟨last', hlast', hkept'⟩ := candidates_kept ht' (by rw [calls_set, if_pos rfl])
          rw [hagree c hne, hlast] at hlast'
          obtain rfl := Option.some.inj hlast'
          have hsame : candidates s (chain settings enabled complexity) readings =
              candidates s' (chain settings enabled complexity) readings := hkept.symm.trans hkept'
          refine ⟨fun _ => hiff.mp hsame, (hgo (hbeside ?_)).mp ⟨t', ht', hagree⟩⟩
          simp only [begun, hsame]
        · rintro ⟨hguard, hobeys⟩
          have hsame := hiff.mpr (hguard hne)
          refine (hgo (hbeside ?_)).mpr hobeys
          simp only [begun, hsame]

end Logs

section Outages

variable [DecidableEq C]

def CooledByOutages (settings : Settings) (clock : ℚ) (as : List (Action C)) : Prop :=
  ∀ xs ys u, as = xs ++ ys → exec (step settings) (created C clock) xs = some u →
    ∀ provider now, u.isHealthy provider now = false → ∃ f e, lastOn u.log provider = some f ∧
      f.result = .error (.providerCall e) ∧ e.reason.outage = true

def OnlyOutages (as : List (Action C)) : Prop :=
  ∀ c e now latencyMs, .finishes c (.error (.providerCall e)) now latencyMs ∈ as →
    e.reason.outage = true

theorem log_of_run {s t : State C} {as : List (Action C)} (h : exec (step settings) s as = some t) :
    ∀ f ∈ t.log, f ∈ s.log ∨ ∃ latencyMs, .finishes f.call f.result f.time latencyMs ∈ as := by
  induction as generalizing s with
  | nil =>
    cases h
    intro f hf
    exact .inl hf
  | cons a as ih =>
    obtain ⟨u, hu, hrest⟩ := Option.bind_eq_some_iff.mp h
    intro f hf
    rcases ih hrest f hf with hold | ⟨latencyMs, hmem⟩
    · cases step_cases hu with
      | begins c complexity enabled readings hc => exact .inl hold
      | finishes c call current model rest result now latencyMs hc hp =>
        change f ∈ (s.finish c current.provider result now).log at hold
        rw [log_finish] at hold
        rcases List.mem_append.mp hold with hold | hnew
        · exact .inl hold
        · right
          rw [List.mem_singleton.mp hnew]
          exact ⟨latencyMs, List.mem_cons_self⟩
    · exact .inr ⟨latencyMs, List.mem_cons_of_mem _ hmem⟩

theorem cooledByOutages_iff {clock : ℚ} {as : List (Action C)} {t : State C}
    (h : exec (step settings) (created C clock) as = some t) :
    CooledByOutages settings clock as ↔ OnlyOutages as := by
  constructor
  · intro hcooled c e now latencyMs hmem
    obtain ⟨xs, ys, rfl⟩ := List.append_of_mem hmem
    obtain ⟨u, hu, hrest⟩ := Option.bind_eq_some_iff.mp (exec_append _ xs _ ▸ h)
    obtain ⟨v, hv, _⟩ := Option.bind_eq_some_iff.mp hrest
    have hxs : exec (step settings) (created C clock)
        (xs ++ [.finishes c (.error (.providerCall e)) now latencyMs]) = some v := by
      rw [exec_append, hu]
      simp [exec, hv]
    cases step_cases hv with
    | finishes c call current model rest result now latencyMs hc hp =>
      have hlast : lastOn (u.finish c current.provider (.error (.providerCall e)) now).log
          current.provider = some ⟨c, current.provider, .error (.providerCall e), now⟩ := by
        rw [log_finish, lastOn_concat, if_pos ⟨rfl, rfl⟩]
      have hcooling := (isHealthy_iff (kept_run hxs).mirrors current.provider now).mpr
        ⟨_, e, hlast, rfl, by simp [healthCooldown]⟩
      obtain ⟨f, e', hf, he', hout⟩ := hcooled _ ys _ (by simp) hxs current.provider now hcooling
      obtain rfl := Option.some.inj (hlast.symm.trans hf)
      cases he'
      exact hout
  · rintro honly xs ys u rfl hu provider now hcool
    obtain ⟨f, e, hlast, he, _⟩ := (isHealthy_iff (kept_run hu).mirrors provider now).mp hcool
    refine ⟨f, e, hlast, he, ?_⟩
    rcases log_of_run hu f (mem_of_lastOn hlast) with hnew | ⟨latencyMs, hmem⟩
    · cases hnew
    · rw [he] at hmem
      exact honly _ e _ latencyMs (List.mem_append_left ys hmem)

/-- A call that the providers reject leaves the others their way exactly if it is never the reason
for some of a chain's cooldowns and not for all; and only outages put providers into cooldown
exactly if no attempt falls for another reason. -/
theorem rejected_undisturbing_iff {b : C} {clock : ℚ} {as : List (Action C)} {s : State C}
    (h : exec (step settings) (created C clock) as = some s)
    (hticks : Obeys (step settings) (Ticks settings) (created C clock) as) (hr : Rejected b as) :
    (Undisturbed b settings (created C clock) as s ↔
      Obeys (step settings) (Spares b settings) (created C clock) as) ∧
    (CooledByOutages settings clock as ↔ OnlyOutages as) := by
  have hbeside : Beside b (created C clock) (created C clock) := ⟨fun _ _ => rfl, rfl, fun _ => rfl⟩
  constructor
  · exact hbeside.undisturbed_iff (sound_created b clock) h hticks hr
  · exact cooledByOutages_iff h

end Outages

def rejects (provider model : String) : Result :=
  .error (.providerCall ⟨provider, model, .http 400 "bad request"⟩)

-- nobody but the rejecting provider is in either chain
def rejectedAlike : List (Action Bool) :=
  [.begins false .standard (fun _ => true) [0], .finishes false (rejects "deepseek" "deepseek-chat") 1 900,
    .begins true .standard (fun _ => true) [5], .finishes true (.ok (answer "yes")) 7 2000]

theorem rejected_alike_undisturbed : ∃ s,
    exec (step twoProviders) (created Bool 0) rejectedAlike = some s ∧
      (Undisturbed false twoProviders (created Bool 0) rejectedAlike s ↔
        Obeys (step twoProviders) (Spares false twoProviders) (created Bool 0) rejectedAlike) ∧
      (CooledByOutages twoProviders 0 rejectedAlike ↔ OnlyOutages rejectedAlike) := by
  have hrun : (exec (step twoProviders) (created Bool 0) rejectedAlike).isSome = true := by
    decide +kernel
  obtain ⟨s, hs⟩ := Option.isSome_iff_exists.mp hrun
  refine ⟨s, hs, rejected_undisturbing_iff hs (by decide +kernel) ?_⟩
  intro result now latencyMs hmem
  simp only [rejectedAlike, List.mem_cons, List.not_mem_nil, or_false, reduceCtorEq, false_or,
    Action.finishes.injEq, Bool.false_eq_true, false_and] at hmem
  obtain ⟨_, rfl, _⟩ := hmem
  exact ⟨_, rfl, rfl⟩

-- the local box times out for the other client, and its fallback is the provider that rejected
def rejectedFirst : List (Action Bool) :=
  [.begins false .standard (fun _ => true) [0], .finishes false (rejects "deepseek" "deepseek-chat") 1 900,
    .begins true .simple (fun _ => true) [5, 5], .finishes true timedOut 7 2000]

def otherCandidates (s : State Bool) : Option (List Candidate) := (s.calls true).map Call.candidates

theorem rejected_call_disturbs : ∃ s,
    exec (step twoProviders) (created Bool 0) rejectedFirst = some s ∧
      Obeys (step twoProviders) (Ticks twoProviders) (created Bool 0) rejectedFirst ∧
      Rejected false rejectedFirst ∧
      ¬ Undisturbed false twoProviders (created Bool 0) rejectedFirst s ∧
      ¬ CooledByOutages twoProviders 0 rejectedFirst := by
  have hrun : (exec (step twoProviders) (created Bool 0) rejectedFirst).map otherCandidates =
      some (some [⟨"local", "default"⟩]) := by decide +kernel
  have hrun' : (exec (step twoProviders) (created Bool 0) (withoutCall false rejectedFirst)).map
      otherCandidates = some (some [⟨"local", "default"⟩, ⟨"deepseek", "default"⟩]) := by
    decide +kernel
  obtain ⟨s, hs, hcandidates⟩ := Option.map_eq_some_iff.mp hrun
  obtain ⟨s', hs', hcandidates'⟩ := Option.map_eq_some_iff.mp hrun'
  refine ⟨s, hs, by decide +kernel, ?_, ?_, ?_⟩
  · intro result now latencyMs hmem
    simp only [rejectedFirst, List.mem_cons, List.not_mem_nil, or_false, reduceCtorEq, false_or,
      Action.finishes.injEq, Bool.false_eq_true, false_and] at hmem
    obtain ⟨_, rfl, _⟩ := hmem
    exact ⟨_, rfl, rfl⟩
  · rintro ⟨t', ht', hagree⟩
    obtain rfl := Option.some.inj (hs'.symm.trans ht')
    rw [otherCandidates, hagree true (by decide)] at hcandidates'
    rw [otherCandidates] at hcandidates
    exact absurd (hcandidates.symm.trans hcandidates') (by decide)
  · rw [cooledByOutages_iff hs]
    intro honly
    have hfalse := honly false ⟨"deepseek", "deepseek-chat", .http 400 "bad request"⟩ 1 900
      (List.mem_cons_of_mem _ List.mem_cons_self)
    exact absurd hfalse (by decide)

end Workbench.ModelRouter
