import Workbench.GuardedGateway
import Workbench.WorkflowApi

namespace Workbench.GatewayStack

open PyJson Services
open WorkflowApi (Desk)

variable {B D : Type} [WorkflowEngine.StateDict D] {settings : Settings}
  (workflows : WorkflowApi.Settings D) (route : Request B → Option (WorkflowApi.Request D))
  (reply : WorkflowApi.Response D → Response) (other : Request B → Except PyError Response)

def workflowRoutes (desk : Desk D) (q : Request B × ℚ) : Desk D × Except PyError Response :=
  match route q.1 with
  | some r =>
    let handled := WorkflowApi.handle workflows desk r
    (handled.1, .ok (reply handled.2))
  | none => (desk, other q.1)

def Approved (required : String) : WorkflowApi.Request D → Prop
  | .decide _ _ token _ => token = some required
  | _ => True

instance (required : String) : DecidablePred (Approved (D := D) required)
  | .decide _ _ token _ => inferInstanceAs (Decidable (token = some required))
  | .run .. => isTrue trivial
  | .getRun _ => isTrue trivial

variable {workflows route reply other}

omit [WorkflowEngine.StateDict D] in
theorem token_of_check {required : String} {token : Option String} (h : required ≠ "")
    (hc : WorkflowApi.checkApprovalToken required token = none) : token = some required := by
  unfold WorkflowApi.checkApprovalToken at hc
  rw [if_neg h] at hc
  split_ifs at hc with hascii hsame
  cases token with
  | none => exact absurd hsame.symm h
  | some t => exact congrArg some hsame

theorem unapproved_handle {desk : Desk D} {r : WorkflowApi.Request D}
    (h : workflows.approvalToken ≠ "") (hr : ¬ Approved workflows.approvalToken r) :
    (WorkflowApi.handle workflows desk r).1 = desk := by
  cases r with
  | run name inputState key runId createdAt env => exact absurd trivial hr
  | getRun runId => exact absurd trivial hr
  | decide runId decision token env =>
    simp only [WorkflowApi.handle]
    cases hc : WorkflowApi.checkApprovalToken workflows.approvalToken token with
    | some e => rfl
    | none => exact absurd (token_of_check h hc) hr

def admits (required : String) (route : Request B → Option (WorkflowApi.Request D))
    (q : Request B × ℚ) : Bool :=
  (route q.1).any fun r => Approved required r

theorem desk_admits (h : workflows.approvalToken ≠ "") (desk : Desk D)
    (requests : List (Request B × ℚ)) :
    (serveAll (workflowRoutes workflows route reply other) desk requests).1 =
      (serveAll (WorkflowApi.handle workflows) desk
        ((requests.filter (admits workflows.approvalToken route)).filterMap fun q => route q.1)).1 := by
  induction requests generalizing desk with
  | nil => rfl
  | cons q requests ih =>
    cases hroute : route q.1 with
    | none =>
      have hno : ¬ admits workflows.approvalToken route q = true := by simp [admits, hroute]
      rw [List.filter_cons_of_neg hno, ← ih desk]
      simp only [serveAll, workflowRoutes, hroute]
    | some r =>
      by_cases hr : Approved workflows.approvalToken r
      · have hyes : admits workflows.approvalToken route q = true := by simp [admits, hroute, hr]
        rw [List.filter_cons_of_pos hyes]
        simp only [serveAll, workflowRoutes, List.filterMap_cons, hroute]
        exact ih _
      · have hno : ¬ admits workflows.approvalToken route q = true := by simp [admits, hroute, hr]
        rw [List.filter_cons_of_neg hno, ← ih desk]
        simp only [serveAll, workflowRoutes, hroute, unapproved_handle h hr]

theorem passed_sublist (settings : Settings) {A : Type}
    (app : A → Request B × ℚ → A × Except PyError Response) (s : State A) (requests : List (Request B × ℚ)) :
    ((passed (serveAll (dispatch settings app) s requests).2).map fun e => (e.request, e.time)).Sublist
      requests := by
  have hall : (serveAll (dispatch settings app) s requests).2.map (fun e => (e.request, e.time)) =
      requests := by
    induction requests generalizing s with
    | nil => rfl
    | cons q requests ih =>
      rw [serveAll, List.map_cons, ih]
      have hcases : DispatchTo settings app s q (dispatch settings app s q) := dispatch_cases
      revert hcases
      generalize dispatch settings app s q = out
      intro hcases
      cases hcases <;> rfl
  have hsub := (List.filter_sublist (l := (serveAll (dispatch settings app) s requests).2)
    (p := fun e => e.reached)).map fun e => (e.request, e.time)
  rwa [hall] at hsub

/-- The desk is as it would be had it been handed only some of the requests, in their order: all came
with the key, and those that decide on a run came with the approval token too. -/
def Screened (settings : Settings) (workflows : WorkflowApi.Settings D)
    (route : Request B → Option (WorkflowApi.Request D)) (desk : Desk D)
    (requests : List (Request B × ℚ)) (final : Desk D) : Prop :=
  ∃ admitted : List (Request B × ℚ), admitted.Sublist requests ∧
    (∀ q ∈ admitted, q.1.xApiKey = some settings.apiKey ∧
      ∃ r ∈ route q.1, Approved settings.approvalToken r) ∧
    final = (serveAll (WorkflowApi.handle workflows) desk (admitted.filterMap fun q => route q.1)).1

/-- On a production gateway whose workflow routes are under `/v1`, whatever is requested. -/
theorem decisions_need_both_secrets {desk : Desk D} {s : State (Desk D)}
    {requests : List (Request B × ℚ)} (hprod : settings.env = .prod)
    (hup : createApp settings desk = .ok s)
    (htoken : workflows.approvalToken = settings.approvalToken)
    (hroute : ∀ q ∈ requests, (route q.1).isSome → RateLimiter.isProtected q.1.path = true) :
    Screened settings workflows route desk requests
      (serveAll (dispatch settings (workflowRoutes workflows route reply other)) s requests).1.app := by
  obtain ⟨hset, rfl⟩ := hardened_of_up hprod hup
  have hsub := passed_sublist settings (workflowRoutes workflows route reply other)
    ⟨RateLimiter.newState, desk⟩ requests
  refine ⟨_, (List.filter_sublist (p := admits workflows.approvalToken route)).trans hsub, ?_, ?_⟩
  · intro q hq
    obtain ⟨hmem, hadmits⟩ := List.mem_filter.mp hq
    obtain ⟨r, hr, happroved⟩ := (Option.any_eq_true _ _).mp hadmits
    obtain ⟨e, he, rfl⟩ := List.mem_map.mp hmem
    obtain ⟨hserved, hreached⟩ := List.mem_filter.mp he
    have hp := hroute _ (hsub.mem hmem) (Option.isSome_of_eq_some hr)
    obtain ⟨t, q, -, rfl⟩ := mem_serveAll hserved
    rw [htoken] at happroved
    exact ⟨keyed_dispatch hset.apiKey hp hreached, r, hr, of_decide_eq_true happroved⟩
  · rw [(routes_alone _ requests).1]
    have hsome : workflows.approvalToken ≠ "" := by
      rw [htoken]
      exact hset.approvalToken
    exact desk_admits hsome desk _

open WorkflowRegistry (gatedOnly endingBranches)

def gatedSettings : WorkflowApi.Settings Unit := ⟨gatedOnly, some, "t"⟩

def grantRun : WorkflowApi.Request Unit := .run "grants" () none "r" "now" endingBranches

def approval (token : Option String) : WorkflowApi.Request Unit :=
  .decide "r" ⟨.approved, "alice", none, "now"⟩ token endingBranches

def posted (path : String) (body : WorkflowApi.Request Unit) : Request (WorkflowApi.Request Unit) :=
  ⟨⟨path, none, some "9.9.9.9"⟩, some "k", body⟩

-- a run that waits, and a decision that has no token
def unapprovedRequests : List (Request (WorkflowApi.Request Unit) × ℚ) :=
  [(posted "/v1/workflows/grants/run" grantRun, 100),
    (posted "/v1/workflows/runs/r/approve" (approval none), 101)]

theorem unapproved_decision_unseen :
    Screened twoAMinute gatedSettings (fun q => some q.body)
      (WorkflowApi.openedDesk (KeyedTable.Table.empty _)) unapprovedRequests
      (serveAll (dispatch twoAMinute (workflowRoutes gatedSettings (fun q => some q.body)
        (fun _ => ⟨200, [], .null⟩) fun _ => .ok ⟨404, [], .null⟩))
        ⟨RateLimiter.newState, WorkflowApi.openedDesk (KeyedTable.Table.empty _)⟩
        unapprovedRequests).1.app :=
  decisions_need_both_secrets rfl rfl rfl (by decide +kernel)

end Workbench.GatewayStack
