import Workbench.ModelRouter

namespace Workbench.ModelRouter

open AgentRuntime PyJson

/-- The request that starts at number `n` is answered with this 200, at most twice put off before;
`m` is the number of the request after it. -/
def AnsweredBy (http : Http) (body : Request) (retries n : ℕ) (resp : Response) (m : ℕ) : Prop :=
  ∃ k ≤ retries, m = n + k + 1 ∧ http (n + k) body = .answered resp ∧ resp.status = 200 ∧
    ∀ j < k, ∃ busy, http (n + j) body = .answered busy ∧ busy.status ∈ retryableStatuses

def value (fields : Dict) (key : String) : Json := (field fields key).getD .null

def Unwraps (data : Json) (fields : Dict) (message : Json) : Prop :=
  data = .dict fields ∧ ∃ first rest, field fields "choices" = some (.list (.dict first :: rest)) ∧
    field first "message" = some message

def Lacking (data : Json) : Prop :=
  ∃ fields, data = .dict fields ∧ match field fields "choices" with
    | none => True
    | some (.list []) => True
    | some (.list (.dict first :: _)) => field first "message" = none
    | some (.str text) => text = ""
    | some (.dict _) => True
    | _ => False

def Readable (message : Dict) : Prop :=
  (value message "content").truthy = true → ∃ text, value message "content" = .str text

def Silent (message : Dict) : Prop :=
  (∀ text, value message "content" = .str text → PyText.strip text = "") ∧
    (value message "tool_calls").truthy = false

def Thinking (message : Dict) : Prop :=
  ∃ key ∈ reasoningFields, (value message key).truthy = true

section Shapes

variable (lib : ClientLibrary)

/-- A function call with a name, a string for an id if it has one, and arguments that `json.loads`
reads or calls no JSON. -/
def CallShaped (raw : Json) : Prop :=
  ∃ fields function name, raw = .dict fields ∧ field fields "function" = some (.dict function) ∧
    field function "name" = some (.str name) ∧
    (∀ id, field fields "id" = some id → ∃ text, id = .str text) ∧
    ∀ arguments text, field function "arguments" = some arguments →
      arguments.orElse (.str "\x7b\x7d") = .str text → lib.loads text ≠ .error .recursion

def UsageShaped (fields : Dict) : Prop :=
  ∃ usage, (value fields "usage").orElse (.dict []) = .dict usage ∧
    (lib.toInt ((field usage "prompt_tokens").getD (.int 0))).isSome = true ∧
    (lib.toInt ((field usage "completion_tokens").getD (.int 0))).isSome = true

def WellShaped (fields message : Dict) : Prop :=
  ((value message "tool_calls").truthy = true → ∃ raws, value message "tool_calls" = .list raws ∧
    ∀ raw ∈ raws, CallShaped lib raw) ∧ UsageShaped lib fields

end Shapes

def Survives {α : Type} : Except Raised α → Prop
  | .ok _ => True
  | .error (.providerCall _) => True
  | .error (.other _) => False

section Binds

variable {α β : Type}

theorem survives_bind {x : Except Raised α} {f : α → Except Raised β} :
    Survives (x.bind f) ↔ Survives x ∧ ∀ a, x = .ok a → Survives (f a) := by
  cases x with
  | ok a => simp [Except.bind, Survives]
  | error e => cases e <;> simp [Except.bind, Survives]

theorem survives_mapError {x : Except PyError α} : Survives (x.mapError .other) ↔ Fine x := by
  cases x <;> simp [Except.mapError, Survives, Fine]

end Binds

section Post

variable {provider : Provider} {model : String} {http : Http} {body : Request}

theorem survives_accept (resp : Response) (n : ℕ) : Survives (accept provider model resp n) := by
  unfold accept
  split_ifs <;> trivial

theorem survives_post (retries n : ℕ) : Survives (post provider model http body retries n) := by
  induction retries generalizing n with
  | zero =>
    unfold post
    cases http n body with
    | transport text => trivial
    | answered resp => exact survives_accept resp n
  | succ retries ih =>
    unfold post
    cases http n body with
    | transport text => trivial
    | answered resp =>
      simp only
      split_ifs
      · exact ih (n + 1)
      · exact survives_accept resp n

theorem accept_iff {first resp : Response} {n m : ℕ} :
    accept provider model first n = .ok (resp, m) ↔ first = resp ∧ resp.status = 200 ∧ m = n + 1 := by
  unfold accept
  split_ifs with hstatus
  · simp only [false_iff]
    rintro ⟨rfl, hok, _⟩
    exact hstatus hok
  · rw [Except.ok.injEq, Prod.mk.injEq]
    constructor
    · rintro ⟨rfl, rfl⟩
      exact ⟨rfl, not_not.mp hstatus, rfl⟩
    · rintro ⟨rfl, _, rfl⟩
      exact ⟨rfl, rfl⟩

theorem answeredBy_zero {n m : ℕ} {resp : Response} : AnsweredBy http body 0 n resp m ↔
    http n body = .answered resp ∧ resp.status = 200 ∧ m = n + 1 := by
  constructor
  · rintro ⟨k, hk, rfl, hresp, hstatus, _⟩
    obtain rfl := Nat.le_zero.mp hk
    exact ⟨hresp, hstatus, rfl⟩
  · rintro ⟨hresp, hstatus, rfl⟩
    exact ⟨0, Nat.le_refl 0, rfl, hresp, hstatus, nofun⟩

theorem answeredBy_succ {retries n m : ℕ} {resp : Response} :
    AnsweredBy http body (retries + 1) n resp m ↔
      http n body = .answered resp ∧ resp.status = 200 ∧ m = n + 1 ∨
        ∃ busy, http n body = .answered busy ∧ busy.status ∈ retryableStatuses ∧
          AnsweredBy http body retries (n + 1) resp m := by
  constructor
  · rintro ⟨k, hk, rfl, hresp, hstatus, hbusy⟩
    cases k with
    | zero => exact .inl ⟨hresp, hstatus, rfl⟩
    | succ k =>
      right
      obtain ⟨busy, hfirst, hretry⟩ := hbusy 0 (Nat.succ_pos k)
      refine ⟨busy, hfirst, hretry, k, Nat.le_of_succ_le_succ hk, by omega, ?_, hstatus, ?_⟩
      · rw [Nat.add_assoc, Nat.add_comm 1 k]
        exact hresp
      · intro j hj
        rw [Nat.add_assoc, Nat.add_comm 1 j]
        exact hbusy (j + 1) (Nat.succ_lt_succ hj)
  · rintro (⟨hresp, hstatus, rfl⟩ | ⟨busy, hfirst, hretry, k, hk, rfl, hresp, hstatus, hbusy⟩)
    · exact ⟨0, Nat.zero_le _, rfl, hresp, hstatus, nofun⟩
    · refine ⟨k + 1, Nat.succ_le_succ hk, by omega, ?_, hstatus, ?_⟩
      · rw [Nat.add_comm k 1, ← Nat.add_assoc]
        exact hresp
      · intro j hj
        cases j with
        | zero => exact ⟨busy, hfirst, hretry⟩
        | succ j =>
          rw [Nat.add_comm j 1, ← Nat.add_assoc]
          exact hbusy j (Nat.lt_of_succ_lt_succ hj)

theorem post_iff {retries n m : ℕ} {resp : Response} :
    post provider model http body retries n = .ok (resp, m) ↔
      AnsweredBy http body retries n resp m := by
  induction retries generalizing n with
  | zero =>
    rw [answeredBy_zero]
    unfold post
    cases http n body with
    | transport text => simp
    | answered first =>
      rw [HttpOutcome.answered.injEq]
      exact accept_iff
  | succ retries ih =>
    rw [answeredBy_succ]
    unfold post
    cases http n body with
    | transport text => simp
    | answered first =>
      simp only [HttpOutcome.answered.injEq]
      split_ifs with hretry
      · rw [ih]
        constructor
        · intro h
          exact .inr ⟨first, rfl, hretry, h⟩
        · rintro (⟨rfl, hok, _⟩ | ⟨busy, rfl, _, h⟩)
          · rw [hok] at hretry
            exact absurd hretry (by decide)
          · exact h
      · rw [accept_iff]
        constructor
        · exact .inl
        · rintro (h | ⟨busy, rfl, hbusy, _⟩)
          · exact h
          · exact absurd hbusy hretry

end Post

theorem strip_orElse {v : Json} {text : String} : (v.orElse (.str "")).strip = .ok text ↔
    v.truthy = false ∧ text = "" ∨ v.truthy = true ∧ ∃ s, v = .str s ∧ text = PyText.strip s := by
  have hempty : PyText.strip "" = "" := by decide +kernel
  unfold Json.orElse
  split_ifs with htruthy
  · cases v <;> simp [Json.strip, htruthy, eq_comm]
  · simp [Json.strip, htruthy, hempty, eq_comm]

theorem silent_dict {message : Dict} (h : Readable message) :
    ∃ quiet, silent (.dict message) = .ok quiet ∧ (quiet = true ↔ Silent message) := by
  have hget : ∀ key, Json.get (.dict message) key .null = .ok (value message key) := fun _ => rfl
  unfold silent Silent
  rw [hget, hget]
  by_cases htruthy : (value message "content").truthy = true
  · obtain ⟨text, htext⟩ := h htruthy
    rw [htext]
    rw [htext] at htruthy
    have hstrip := strip_orElse.mpr (.inr ⟨htruthy, text, rfl, rfl⟩)
    simp [Except.bind, hstrip, Except.map]
  · have hstrip := strip_orElse.mpr (.inl ⟨Bool.not_eq_true _ ▸ htruthy, rfl⟩)
    simp only [Except.bind, hstrip, Except.map]
    refine ⟨_, rfl, ?_⟩
    have htext : ∀ text, value message "content" = .str text → PyText.strip text = "" := by
      intro text htext
      rw [htext] at htruthy
      have : text = "" := by simpa [Json.truthy] using htruthy
      rw [this]
      decide +kernel
    simp
    exact fun _ => htext

theorem fine_silent {message : Json} :
    Fine (silent message) ↔ ∃ fields, message = .dict fields ∧ Readable fields := by
  constructor
  · intro h
    obtain ⟨content, hcontent, hrest⟩ := fine_bind.mp h
    obtain ⟨fields, rfl⟩ := Json.fine_get.mp ⟨content, hcontent⟩
    refine ⟨fields, rfl, ?_⟩
    intro htruthy
    obtain ⟨text, htext, _⟩ := fine_bind.mp hrest
    cases hcontent
    rcases strip_orElse.mp htext with ⟨hfalse, _⟩ | ⟨_, s, hs, _⟩
    · rw [value] at htruthy
      rw [htruthy] at hfalse
      cases hfalse
    · exact ⟨s, hs⟩
  · rintro ⟨fields, rfl, h⟩
    obtain ⟨quiet, hquiet, _⟩ := silent_dict h
    exact ⟨quiet, hquiet⟩

theorem thoughtOnly_dict {message : Dict} (h : Readable message) : ∃ thought,
    thoughtOnly (.dict message) = .ok thought ∧ (thought = true ↔ Silent message ∧ Thinking message) := by
  obtain ⟨quiet, hquiet, hsilent⟩ := silent_dict h
  have hvalues : (reasoningFields.mapM fun key => Json.get (.dict message) key .null) =
      .ok (reasoningFields.map (value message)) := rfl
  refine ⟨quiet && (reasoningFields.map (value message)).any Json.truthy, ?_, ?_⟩
  · rw [thoughtOnly, hquiet, hvalues]
    rfl
  · rw [Bool.and_eq_true, hsilent, List.any_map, List.any_eq_true]
    rfl

theorem fine_thoughtOnly {message : Json} :
    Fine (thoughtOnly message) ↔ ∃ fields, message = .dict fields ∧ Readable fields := by
  constructor
  · intro h
    obtain ⟨quiet, hquiet, _⟩ := fine_bind.mp h
    exact fine_silent.mp ⟨quiet, hquiet⟩
  · rintro ⟨fields, rfl, h⟩
    obtain ⟨thought, hthought, _⟩ := thoughtOnly_dict h
    exact ⟨thought, hthought⟩
theorem item_ok {v x : Json} {key : String} :
    v.item key = .ok x ↔ ∃ fields, v = .dict fields ∧ field fields key = some x := by
  cases v with
  | dict fields => cases hf : field fields key <;> simp [Json.item, hf]
  | _ => simp [Json.item]

theorem asStr_ok {v : Json} {s : String} : v.asStr = .ok s ↔ v = .str s := by
  cases v <;> simp [Json.asStr]

section Calls

variable {lib : ClientLibrary}

theorem fine_extractJson {v : Json} :
    Fine (extractJson lib v) ↔ ∀ text, v = .str text → lib.loads text ≠ .error .recursion := by
  cases v with
  | str text =>
    cases hl : lib.loads text with
    | ok parsed => simp [extractJson, Fine, hl]
    | error e => cases e <;> simp [extractJson, Fine, hl]
  | _ => simp [extractJson, Fine]

theorem extractJson_keyError {v : Json} {text : String} :
    extractJson lib v ≠ .error (.keyError text) := by
  unfold extractJson
  split
  · split <;> simp
  · simp

theorem fine_parsedArguments {fields function : Dict}
    (hf : field fields "function" = some (.dict function)) :
    Fine (parsedArguments lib (.dict fields)) ↔ ∀ arguments text,
      field function "arguments" = some arguments → arguments.orElse (.str "\x7b\x7d") = .str text →
        lib.loads text ≠ .error .recursion := by
  have hfunction : Json.item (.dict fields) "function" = .ok (.dict function) :=
    item_ok.mpr ⟨fields, rfl, hf⟩
  unfold parsedArguments
  rw [hfunction]
  cases ha : field function "arguments" with
  | none => simp [Except.bind, Json.item, ha, Fine]
  | some arguments =>
    have hitem : Json.item (.dict function) "arguments" = .ok arguments :=
      item_ok.mpr ⟨function, rfl, ha⟩
    simp only [Except.bind, hitem, Option.some.injEq]
    have hloads : (∀ v text, arguments = v → v.orElse (.str "\x7b\x7d") = .str text →
        lib.loads text ≠ .error .recursion) ↔
          Fine (extractJson lib (arguments.orElse (.str "\x7b\x7d"))) := by
      rw [fine_extractJson]
      constructor
      · intro h text
        exact h arguments text rfl
      · rintro h _ text rfl
        exact h text
    rw [hloads]
    split
    · rename_i text hkey
      exact absurd hkey extractJson_keyError
    · rfl

theorem fine_toolCall {raw : Json} : Fine (toolCall lib raw) ↔ CallShaped lib raw := by
  constructor
  · intro h
    obtain ⟨parsed, hparsed, h⟩ := fine_bind.mp h
    obtain ⟨id, hid, h⟩ := fine_bind.mp h
    obtain ⟨name, hname, h⟩ := fine_bind.mp h
    obtain ⟨idText, hidText, h⟩ := fine_bind.mp h
    obtain ⟨nameText, hnameText⟩ := fine_map.mp h
    obtain ⟨fields, rfl⟩ := Json.fine_get.mp ⟨id, hid⟩
    obtain ⟨f, hf, hnameItem⟩ := fine_bind.mp ⟨name, hname⟩
    have hnameOf : f.item "name" = .ok name := by
      rw [hf] at hname
      exact hname
    obtain ⟨_, hsame, hfunction⟩ := item_ok.mp hf
    cases hsame
    obtain ⟨function, rfl, hnameField⟩ := item_ok.mp hnameOf
    rw [asStr_ok] at hnameText hidText
    refine ⟨fields, function, nameText, rfl, hfunction, hnameText ▸ hnameField, ?_,
      (fine_parsedArguments hfunction).mp ⟨parsed, hparsed⟩⟩
    intro v hv
    rw [Json.get_dict, hv] at hid
    cases hid
    exact ⟨idText, hidText⟩
  · rintro ⟨fields, function, name, rfl, hfunction, hname, hid, harguments⟩
    obtain ⟨parsed, hparsed⟩ : Fine (parsedArguments lib (.dict fields)) :=
      (fine_parsedArguments hfunction).mpr harguments
    have hitem : (Json.item (.dict fields) "function").bind (fun f => f.item "name") =
        .ok (.str name) := by
      rw [item_ok.mpr ⟨fields, rfl, hfunction⟩]
      exact item_ok.mpr ⟨function, rfl, hname⟩
    obtain ⟨idText, hidText⟩ : ∃ text, (field fields "id").getD (.str "") = .str text := by
      cases hv : field fields "id" with
      | none => exact ⟨"", rfl⟩
      | some v => exact hid v hv
    unfold toolCall
    rw [hparsed, Json.get_dict, hidText, hitem]
    exact ⟨_, rfl⟩

theorem fine_usageOf {fields : Dict} : Fine (usageOf lib (.dict fields)) ↔ UsageShaped lib fields := by
  have hget : Json.get (.dict fields) "usage" .null = .ok (value fields "usage") := rfl
  unfold usageOf UsageShaped
  rw [hget]
  simp only [Except.bind]
  cases (value fields "usage").orElse (.dict []) with
  | dict usage =>
    simp only [Json.get_dict, Json.dict.injEq, exists_eq_left']
    cases lib.toInt ((field usage "prompt_tokens").getD (.int 0)) with
    | none => simp [Fine]
    | some prompt =>
      cases lib.toInt ((field usage "completion_tokens").getD (.int 0)) <;> simp [Fine]
  | _ => simp [Json.get, Fine]

theorem fine_toolCalls {v : Json} :
    Fine ((v.orElse (.list [])).iter.bind fun raws => raws.mapM (toolCall lib)) ↔
      (v.truthy = true → ∃ raws, v = .list raws ∧ ∀ raw ∈ raws, CallShaped lib raw) := by
  -- what is no list is no call, whether a key of an object or a character of a string
  have hstr : ∀ text, ¬ CallShaped lib (.str text) := by
    rintro text ⟨_, _, _, hdict, _⟩
    cases hdict
  have hiter : Fine (v.iter.bind fun raws => raws.mapM (toolCall lib)) ↔
      ∃ raws, v.iter = .ok raws ∧ ∀ raw ∈ raws, CallShaped lib raw := by
    simp only [fine_bind, fine_mapM, fine_toolCall]
  unfold Json.orElse
  split_ifs with htruthy
  · rw [hiter]
    simp only [htruthy, forall_const]
    cases v with
    | list items => simp [Json.iter]
    | str text =>
      have hne : text ≠ "" := by simpa [Json.truthy] using htruthy
      simp only [Json.iter, Except.ok.injEq, exists_eq_left', List.forall_mem_map, reduceCtorEq,
        false_and, exists_false, iff_false, not_forall]
      obtain ⟨c, hc⟩ := List.exists_mem_of_ne_nil text.toList
        (fun hnil => hne (String.toList_inj.mp hnil))
      exact ⟨c, hc, hstr _⟩
    | dict fields =>
      have hne : fields ≠ [] := by simpa [Json.truthy] using htruthy
      simp only [Json.iter, Except.ok.injEq, exists_eq_left', List.forall_mem_map, reduceCtorEq,
        false_and, exists_false, iff_false, not_forall]
      obtain ⟨f, hf⟩ := List.exists_mem_of_ne_nil fields hne
      exact ⟨f, hf, hstr _⟩
    | _ => simp [Json.iter]
  · constructor
    · intro _ htrue
      exact absurd htrue htruthy
    · intro _
      exact ⟨[], rfl⟩

theorem fine_stepOutput {fields message : Dict} (h : Readable message) :
    Fine (stepOutput lib (.dict fields) (.dict message)) ↔ WellShaped lib fields message := by
  have hget : ∀ key, Json.get (.dict message) key .null = .ok (value message key) := fun _ => rfl
  obtain ⟨text, htext⟩ : Fine ((value message "content").orElse (.str "")).asStr := by
    unfold Json.orElse
    split_ifs with htruthy
    · obtain ⟨text, htext⟩ := h htruthy
      exact ⟨text, by rw [htext]; rfl⟩
    · exact ⟨"", rfl⟩
  rw [WellShaped, ← fine_toolCalls, ← fine_usageOf]
  unfold stepOutput
  rw [hget, hget]
  constructor
  · intro hfine
    obtain ⟨calls, hsame, hfine⟩ := fine_bind.mp hfine
    cases hsame
    obtain ⟨raws, hraws, hfine⟩ := fine_bind.mp hfine
    obtain ⟨toolCalls, hcalls, hfine⟩ := fine_bind.mp hfine
    obtain ⟨usage, husage, _⟩ := fine_bind.mp hfine
    exact ⟨fine_bind.mpr ⟨raws, hraws, toolCalls, hcalls⟩, usage, husage⟩
  · rintro ⟨hfine, usage, husage⟩
    obtain ⟨raws, hraws, toolCalls, hcalls⟩ := fine_bind.mp hfine
    refine fine_bind.mpr ⟨_, rfl, fine_bind.mpr ⟨raws, hraws, fine_bind.mpr ⟨toolCalls, hcalls, ?_⟩⟩⟩
    refine fine_bind.mpr ⟨usage, husage, fine_bind.mpr ⟨_, rfl, ?_⟩⟩
    rw [htext]
    exact ⟨_, rfl⟩

end Calls
theorem messageOf_ok {data message : Json} :
    messageOf data = .ok message ↔ ∃ fields, Unwraps data fields message := by
  unfold messageOf Unwraps
  cases data with
  | dict fields =>
    simp only [Json.item, Json.dict.injEq]
    cases hc : field fields "choices" with
    | none => simp [Except.bind, hc]
    | some choices =>
      cases choices with
      | list items =>
        cases items with
        | nil => simp [Except.bind, Json.first, hc]
        | cons first rest =>
          cases first with
          | dict c => cases hm : field c "message" <;> simp [Except.bind, Json.first, hc, hm]
          | _ => simp [Except.bind, Json.first, hc]
      | str text => cases ht : text.toList <;> simp [Except.bind, Json.first, hc, ht]
      | _ => simp [Except.bind, Json.first, hc]
  | _ => simp [Except.bind, Json.item]

theorem messageOf_lookup {data : Json} :
    (∃ e, messageOf data = .error e ∧ isLookupError e = true) ↔ Lacking data := by
  unfold messageOf Lacking
  cases data with
  | dict fields =>
    simp only [Json.item, Json.dict.injEq, exists_eq_left']
    cases hc : field fields "choices" with
    | none => simp [Except.bind, isLookupError]
    | some choices =>
      cases choices with
      | list items =>
        cases items with
        | nil => simp [Except.bind, Json.first, isLookupError]
        | cons first rest =>
          cases first with
          | dict c => cases hm : field c "message" <;> simp [Except.bind, Json.first, hm, isLookupError]
          | _ => simp [Except.bind, Json.first, isLookupError]
      | str text =>
        have hempty : text = "" ↔ text.toList = [] := by rw [← String.toList_inj]; rfl
        cases ht : text.toList <;> simp [Except.bind, Json.first, hempty, ht, isLookupError]
      | _ => simp [Except.bind, Json.first, isLookupError]
  | _ => simp [Except.bind, Json.item, isLookupError]

section Unwrap

variable {provider : Provider} {model : String} {resp : Response}

theorem unwrap_ok {data message : Json} : unwrap provider model resp = .ok (data, message) ↔
    resp.json = .ok data ∧ ∃ fields, Unwraps data fields message := by
  rw [← messageOf_ok]
  unfold unwrap
  cases resp.json with
  | error e => simp
  | ok parsed =>
    simp only [Except.ok.injEq]
    cases hm : messageOf parsed with
    | ok m =>
      rw [Except.ok.injEq, Prod.mk.injEq]
      constructor
      · rintro ⟨rfl, rfl⟩
        exact ⟨rfl, hm⟩
      · rintro ⟨rfl, hsame⟩
        exact ⟨rfl, Except.ok.inj (hm.symm.trans hsame)⟩
    | error e =>
      simp only [reduceCtorEq, false_iff, not_and]
      rintro rfl
      simp [hm]

theorem survives_unwrap : Survives (unwrap provider model resp) ↔
    ∃ data, resp.json = .ok data ∧ (Lacking data ∨ ∃ fields message, Unwraps data fields message) := by
  unfold unwrap
  cases resp.json with
  | error e => simp [Survives]
  | ok data =>
    simp only [Except.ok.injEq, exists_eq_left']
    rw [← messageOf_lookup, exists_comm]
    simp only [← messageOf_ok]
    cases hm : messageOf data with
    | ok m => simp [Survives]
    | error e => cases hl : isLookupError e <;> simp [Survives, failed, hl]

/-- The response is one to fall back for, or has a message with which the rest goes well. -/
def Acceptable (resp : Response) (P : Dict → Dict → Prop) : Prop :=
  ∃ data, resp.json = .ok data ∧ (Lacking data ∨
    ∃ fields message, Unwraps data fields (.dict message) ∧ Readable message ∧ P fields message)

theorem survives_unwrap_bind {α : Type} {P : Dict → Dict → Prop} {f : Json × Json → Except Raised α}
    (hreadable : ∀ data message, Survives (f (data, message)) →
      ∃ fields, message = .dict fields ∧ Readable fields)
    (hrest : ∀ fields message, Readable message →
      (Survives (f (.dict fields, .dict message)) ↔ P fields message)) :
    Survives ((unwrap provider model resp).bind f) ↔ Acceptable resp P := by
  rw [survives_bind, survives_unwrap]
  constructor
  · rintro ⟨⟨data, hjson, hdata⟩, hgo⟩
    refine ⟨data, hjson, hdata.imp_right ?_⟩
    rintro ⟨fields, message, hunwraps⟩
    have hsurvives := hgo _ (unwrap_ok.mpr ⟨hjson, fields, hunwraps⟩)
    obtain ⟨m, rfl, hm⟩ := hreadable data message hsurvives
    obtain rfl : data = .dict fields := hunwraps.1
    exact ⟨fields, m, hunwraps, hm, (hrest fields m hm).mp hsurvives⟩
  · rintro ⟨data, hjson, hdata⟩
    refine ⟨⟨data, hjson, hdata.imp_right ?_⟩, ?_⟩
    · rintro ⟨fields, message, hunwraps, _⟩
      exact ⟨fields, .dict message, hunwraps⟩
    · rintro ⟨data', message'⟩ hok
      obtain ⟨hjson', fields', hunwraps'⟩ := unwrap_ok.mp hok
      obtain rfl := Except.ok.inj (hjson.symm.trans hjson')
      have hmessage := messageOf_ok.mpr ⟨fields', hunwraps'⟩
      rcases hdata with hlacking | ⟨fields, message, hunwraps, hm, hP⟩
      · obtain ⟨e, he, _⟩ := messageOf_lookup.mpr hlacking
        rw [hmessage] at he
        cases he
      · obtain rfl := Except.ok.inj (hmessage.symm.trans (messageOf_ok.mpr ⟨fields, hunwraps⟩))
        obtain rfl : data = .dict fields := hunwraps.1
        exact (hrest fields message hm).mpr hP

end Unwrap

section Client

variable {lib : ClientLibrary} {provider : Provider} {model : String} {http : Http}

def Rethinks (provider : Provider) (message : Dict) : Prop :=
  (Silent message ∧ Thinking message) ∧ provider.apiKeyEnv = ""

def Tolerable (lib : ClientLibrary) (provider : Provider) (http : Http) (body : Request) : Prop :=
  ∀ resp n, AnsweredBy http body maxRetries 0 resp n → Acceptable resp fun fields message =>
    (¬ Rethinks provider message → WellShaped lib fields message) ∧
    (Rethinks provider message → ∀ resp m,
      AnsweredBy http body.unthinking maxRetries n resp m →
        Acceptable resp fun fields message => Silent message ∨ WellShaped lib fields message)

theorem survives_silent {fields message : Dict} (h : Readable message) (reason : Reason) :
    Survives (((silent (.dict message)).mapError .other).bind fun quiet =>
      if quiet then .error (failed provider model reason)
      else (stepOutput lib (.dict fields) (.dict message)).mapError .other) ↔
        Silent message ∨ WellShaped lib fields message := by
  obtain ⟨quiet, hquiet, hsilent⟩ := silent_dict h
  rw [hquiet, ← fine_stepOutput h, ← survives_mapError, ← hsilent]
  cases quiet with
  | true => simp [Except.mapError, Except.bind, failed, Survives]
  | false => simp [Except.mapError, Except.bind]

theorem readable_of_survives {α : Type} {x : Json → Except PyError Bool} {message : Json}
    {f : Bool → Except Raised α}
    (hx : Fine (x message) → ∃ fields, message = .dict fields ∧ Readable fields)
    (h : Survives (((x message).mapError .other).bind f)) :
    ∃ fields, message = .dict fields ∧ Readable fields :=
  hx (survives_mapError.mp (survives_bind.mp h).1)

theorem survives_post_bind {α : Type} {body : Request} {n : ℕ}
    {f : Response × ℕ → Except Raised α} {P : Response → ℕ → Prop}
    (h : ∀ resp m, Survives (f (resp, m)) ↔ P resp m) :
    Survives ((post provider model http body maxRetries n).bind f) ↔
      ∀ resp m, AnsweredBy http body maxRetries n resp m → P resp m := by
  rw [survives_bind, and_iff_right (survives_post maxRetries n)]
  constructor
  · intro hgo resp m hanswered
    exact (h resp m).mp (hgo _ (post_iff.mpr hanswered))
  · rintro hgo ⟨resp, m⟩ hok
    exact (h resp m).mpr (hgo resp m (post_iff.mp hok))

theorem survives_step (transcript : Transcript Dict) (tools : List Function) (system : Option String)
    (maxTokens : ℤ) :
    Survives (stepOpenaiCompatible lib provider model http transcript tools system maxTokens) ↔
      Tolerable lib provider http (payload lib provider model
        (systemMessages system ++ transcript.map (Message.openai lib.dumps)) tools maxTokens) := by
  unfold stepOpenaiCompatible
  rw [toOpenaiMessages_ok]
  apply survives_post_bind
  intro resp n
  apply survives_unwrap_bind
  · intro data message
    exact readable_of_survives fine_thoughtOnly.mp
  · intro fields message h
    obtain ⟨thought, hthought, hthinks⟩ := thoughtOnly_dict h
    have hrethinks : (thought && decide (provider.apiKeyEnv = "")) = true ↔
        Rethinks provider message := by
      rw [Bool.and_eq_true, hthinks, decide_eq_true_eq, Rethinks]
    simp only [hthought, Except.mapError, Except.bind]
    split_ifs with hagain
    · simp only [hrethinks.mp hagain, not_true_eq_false, false_implies, true_and, true_implies]
      apply survives_post_bind
      intro resp m
      apply survives_unwrap_bind
      · intro data message
        exact readable_of_survives fine_silent.mp
      · intro fields message h
        exact survives_silent h _
    · have hnot : ¬ Rethinks provider message := fun h => hagain (hrethinks.mpr h)
      simp only [hnot, not_false_eq_true, true_implies, false_implies, and_true]
      exact survives_mapError.trans (fine_stepOutput h)

theorem survives_iff {α : Type} {x : Except Raised α} :
    Survives x ↔ (∃ a, x = .ok a) ∨ ∃ e, x = .error (.providerCall e) := by
  cases x with
  | ok a => simp [Survives]
  | error e => cases e <;> simp [Survives]

def GoesOn (settings : Settings) (call : Call) (current : Candidate) (model : String)
    (rest : List Candidate) (result : Result) (latencyMs : ℤ) : Prop :=
  (∃ out, (call.finish settings current model rest result latencyMs).pc = .returned out) ∨
    (call.finish settings current model rest result latencyMs).attempts =
        call.attempts ++ [attemptName current model] ∧
      (call.finish settings current model rest result latencyMs).pc = tryNext settings rest

theorem goesOn_iff {settings : Settings} {call : Call} {current : Candidate} {rest : List Candidate}
    {result : Result} {latencyMs : ℤ} :
    GoesOn settings call current model rest result latencyMs ↔ Survives result := by
  unfold GoesOn Call.finish
  cases result with
  | ok out => simp [Survives]
  | error e => cases e <;> simp [Survives]

theorem fallback_iff_tolerable (transcript : Transcript Dict) (tools : List Function)
    (system : Option String) (maxTokens : ℤ) :
    let result := stepOpenaiCompatible lib provider model http transcript tools system maxTokens
    let tolerable := Tolerable lib provider http (payload lib provider model
      (systemMessages system ++ transcript.map (Message.openai lib.dumps)) tools maxTokens)
    ((∃ out, result = .ok out) ∨ (∃ e, result = .error (.providerCall e)) ↔ tolerable) ∧
      ∀ settings call current rest latencyMs,
        GoesOn settings call current model rest result latencyMs ↔ tolerable := by
  intro result tolerable
  have hstep : Survives result ↔ tolerable := survives_step transcript tools system maxTokens
  constructor
  · exact survives_iff.symm.trans hstep
  · intro settings call current rest latencyMs
    exact goesOn_iff.trans hstep

end Client

def plainLibrary : ClientLibrary where
  dumps _ := "\x7b\x7d"
  loads text := if text = "\x7b\x7d" then .ok (.dict []) else .error .decode
  toInt
    | .int n => some n
    | _ => none
  environ _ := none
  localReadTimeout := 120

def localBox : Provider :=
  ⟨"local", .openaiCompatible, "http://localhost:11434/v1", "", [("default", "qwen2.5:3b-instruct")]⟩

def loginPage : Http := fun _ _ => .answered ⟨200, "<html>", .error .decode⟩

theorem login_page_escapes :
    let result := stepOpenaiCompatible plainLibrary localBox "qwen2.5:3b-instruct" loginPage
      [.user "hi"] [] none 16
    ¬ ((∃ out, result = .ok out) ∨ ∃ e, result = .error (.providerCall e)) := by
  intro result
  have hresult : result = .error (.other (.raised "JSONDecodeError")) := rfl
  rw [hresult]
  simp

end Workbench.ModelRouter
