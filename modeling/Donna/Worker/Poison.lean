import Donna.Orchestrator.Returns
import Donna.Worker.Payload

/-! Orders that the worker accepts and whose run throws.  Such a job fails on every redelivery with
its task still pending, although no database error is involved. -/

namespace Donna

open Js Async Async.Program

section Poison

variable {platform : Platform} {order : WorkOrder} {deps : OrchestratorDeps}
  {offers : AdapterRef → Set (Except Thrown CostEstimate)}

/-- An adapter that may give an affordable estimate can be taken to give one. -/
theorem exists_usual (platform : Platform) (order : WorkOrder)
    (answered : ∀ adapter, (offers adapter).Nonempty) :
    ∃ usual : AdapterRef → Except Thrown CostEstimate, ∀ adapter, usual adapter ∈ offers adapter ∧
      ((∃ est, .ok est ∈ offers adapter ∧ Affords platform order est) →
        ∃ est, usual adapter = .ok est ∧ Affords platform order est) := by
  have usual : ∀ adapter, ∃ reply, reply ∈ offers adapter ∧
      ((∃ est, .ok est ∈ offers adapter ∧ Affords platform order est) →
        ∃ est, reply = .ok est ∧ Affords platform order est) := by
    intro adapter
    by_cases affordable : ∃ est, .ok est ∈ offers adapter ∧ Affords platform order est
    · obtain ⟨est, offered, affords⟩ := affordable
      exact ⟨.ok est, offered, fun _ => ⟨est, rfl, affords⟩⟩
    · obtain ⟨reply, offered⟩ := answered adapter
      exact ⟨reply, offered, fun given => absurd given affordable⟩
  choose usual h using usual
  exact ⟨usual, h⟩

theorem Withstands.not_throws (withstands : Withstands platform order deps offers)
    {estimate : AdapterRef → Except Thrown CostEstimate}
    (offered : ∀ adapter, estimate adapter ∈ offers adapter) (history : History) :
    ¬ wp (executeWorkOrder platform order
        (outageDeps deps.workRegistry deps.modelRegistry deps.wired estimate)) history
      fun outcome _ => ∃ error, outcome = .error error := by
  rintro ⟨error, threw⟩
  have possible : ∀ adapter reply, Estimates (outageDeps deps.workRegistry deps.modelRegistry
      deps.wired estimate) adapter reply → reply ∈ offers adapter := by
    intro adapter reply estimates
    rw [estimates.of_outage]
    exact offered adapter
  obtain ⟨⟨result, returned⟩, -⟩ :=
    withstands _ (outageDeps_setUpAs estimate) outageDeps_resolves possible history
  rw [threw] at returned
  cases returned

theorem Withstands.policyEvaluates (withstands : Withstands platform order deps offers)
    (answered : ∀ adapter, (offers adapter).Nonempty) : PolicyEvaluates platform order := by
  intro policy present
  cases evaluated : evaluate platform.realm policy with
  | ok decision => exact ⟨decision, rfl⟩
  | error reason =>
    choose estimate offered using answered
    refine absurd ?_ (withstands.not_throws offered [])
    rw [wp, executeWorkOrder_policy_throws present evaluated]
    exact ⟨_, rfl⟩

theorem Withstands.estimatesAssessable (withstands : Withstands platform order deps offers)
    (answered : ∀ adapter, (offers adapter).Nonempty) (allowed : PolicyAllows platform order) :
    EstimatesAssessable platform order deps offers := by
  obtain ⟨usual, hUsual⟩ := exists_usual platform order answered
  intro tried
  -- Strong induction on how many adapters were tried, as the last one may be among them.
  induction count : tried.length using Nat.strong_induction_on generalizing tried with
  | _ n ih =>
  intro adapter later split affordable reply offered
  by_contra unassessable
  by_cases earlier : adapter ∈ tried
  · obtain ⟨before, between, rfl⟩ := List.append_of_mem earlier
    have shorter : before.length < n := by
      rw [← count, List.length_append, List.length_cons]
      omega
    refine unassessable (ih before.length shorter before rfl adapter
      (between ++ adapter :: later) (by simpa using split) (fun passed listed => ?_) reply offered)
    exact affordable passed (List.mem_append_left _ listed)
  · let estimate := Function.update usual adapter reply
    have offers_estimate : ∀ other, estimate other ∈ offers other := by
      intro other
      by_cases same : other = adapter
      · subst same
        simpa [estimate] using offered
      · simpa [estimate, same] using (hUsual other).1
    have triedAffordable : Affordable platform order estimate tried := by
      intro passed listed
      have other : passed ≠ adapter := fun same => earlier (same ▸ listed)
      obtain ⟨est, given, affords⟩ := (hUsual passed).2 (affordable passed listed)
      exact ⟨est, by simpa [estimate, other] using given, affords⟩
    rw [← (outageDeps_setUpAs estimate).attemptOrder_eq] at split
    refine withstands.not_throws offers_estimate []
      (executeWorkOrder_outage_throws allowed split triedAffordable ?_)
    simpa [estimate] using unassessable

end Poison

/-- A run returns whatever the adapters do, and treats a rejected estimate as a rejected call,
exactly when `evaluate` comes to a decision on the policy and, if it allows the order, `checkBudget`
comes to one on every estimate that the run can be given. -/
theorem executeWorkOrder_withstands_iff (platform : Platform) (order : WorkOrder)
    (deps : OrchestratorDeps) (offers : AdapterRef → Set (Except Thrown CostEstimate))
    (answered : ∀ adapter, (offers adapter).Nonempty) :
    Withstands platform order deps offers ↔
      PolicyEvaluates platform order ∧
        (PolicyAllows platform order → EstimatesAssessable platform order deps offers) := by
  constructor
  · intro withstands
    exact ⟨withstands.policyEvaluates answered, withstands.estimatesAssessable answered⟩
  · rintro ⟨evaluates, assessable⟩ other same publishes offered history
    refine wp_mono executeWorkOrder_run fun outcome actions run => ?_
    have sound : Sound outcome actions := by
      refine run.sound publishes evaluates (fun allowed tried adapter later split => ?_) offered
      rw [same.attemptOrder_eq] at split
      exact assessable allowed tried adapter later split
    exact ⟨sound.1, sound.handled⟩

theorem executeWorkOrder_withstands_iff_crm :
    Withstands .plain crmOrder crmFallbackDeps (fun _ => Set.univ) ↔
      PolicyEvaluates .plain crmOrder ∧ (PolicyAllows .plain crmOrder →
        EstimatesAssessable .plain crmOrder crmFallbackDeps fun _ => Set.univ) :=
  executeWorkOrder_withstands_iff .plain crmOrder crmFallbackDeps (fun _ => Set.univ)
    fun _ => ⟨.error (.value .null), trivial⟩

def crmBudgetPayload : JsValue := .object [
  ("organizationId", .string "acme"),
  ("requiredCapabilities", JsValue.strings ["crm.update"]),
  ("budget", budgetGateToJs { scope := "task", scopeRef := "task-1", limitUsd := 5 } 0)]

def crmBudgetOrder : WorkOrder := { crmOrder with taskId := none }

def timedOut : Except Thrown CostEstimate := .error (.value (.string "timeout"))

/-- The API's estimate times out, and the run throws. -/
theorem executeWorkOrder_throws_on_estimate :
    ¬ ∀ (payload : JsValue) (order : WorkOrder), payload.isJson = true →
      parseWorkOrder payload = .ok order →
      ∀ (platform : Platform) (deps : OrchestratorDeps)
        (offers : AdapterRef → Set (Except Thrown CostEstimate)),
        (∀ adapter, (offers adapter).Nonempty) → Withstands platform order deps offers := by
  intro withstands
  have poisoned := withstands crmBudgetPayload crmBudgetOrder (by decide +kernel) rfl .plain
    crmFallbackDeps (fun _ => {timedOut}) fun _ => Set.singleton_nonempty timedOut
  have split : attemptOrder .plain crmBudgetOrder (outageDeps crmFallbackDeps.workRegistry
      crmFallbackDeps.modelRegistry crmFallbackDeps.wired fun _ => timedOut) =
        [] ++ .capability "crm-api" :: [.capability "crm-browser"] := by decide
  have allowed : PolicyAllows .plain crmBudgetOrder := by
    simp [PolicyAllows, crmBudgetOrder, crmOrder]
  have unassessable : ¬ Assessable .plain crmBudgetOrder timedOut := by
    intro assessable
    obtain ⟨est, check, resolved, -⟩ := assessable _ rfl
    cases resolved
  exact poisoned.not_throws (fun _ => rfl) []
    (executeWorkOrder_outage_throws allowed split (by simp [Affordable]) unassessable)

-- The parser accepts an empty record as a policy and as a budget, and neither can be read.
example : evaluate .plain (.object []) = .error .notAnObject := rfl

example (est : CostEstimate) : checkOrderBudget .plain (.object []) est = .error .notAnObject := rfl

end Donna
