import Donna.Orchestrator.Exhaustion

/-! The execution class that a run reports.  The class of a model's result is the Work Router's
coarse one, or cloud AI after an escalation; the Model Router then picks local or cloud by the
constraints of the order alone. -/

namespace Donna

open Js Async Async.Program

/-- The privacy of a model is the one that an AI class names. -/
structure ExecutionClass.Names (executionClass : ExecutionClass) (privacy : ModelPrivacy) :
    Prop where
  localAi : executionClass = .localAi → privacy = .localNode
  cloudAi : executionClass = .cloudAi → privacy = .cloud

section Completion

variable (platform : Platform) (order : WorkOrder) (deps : OrchestratorDeps)

/-- A run that completes with the result through the model `entry`. -/
structure CompletedOn (entry : ModelEntry) (result : WorkOrderResult) (actions : List Action) :
    Prop where
  reported : result.executionClass = some (modelPathClass order deps)
  named : result.modelId = some entry.id
  executed : ∃ reply, .executed entry.ref (.ok reply) ∈ actions
  inChain : entry ∈ modelChain platform order deps

variable {platform order deps}
  {outcome : Except Thrown WorkOrderResult} {actions more : List Action} {adapter : AdapterRef}
  {result : WorkOrderResult} {entry : ModelEntry}

theorem CompletedOn.append_left (completed : CompletedOn platform order deps entry result more)
    (actions : List Action) : CompletedOn platform order deps entry result (actions ++ more) := by
  obtain ⟨reported, named, ⟨reply, executed⟩, inChain⟩ := completed
  exact ⟨reported, named, ⟨reply, List.mem_append_right actions executed⟩, inChain⟩

theorem Succeeded.executed {reply : Reply}
    (succeeded : Succeeded platform order deps adapter reply actions) :
    .executed adapter (.ok reply) ∈ actions := by
  obtain ⟨entry, started, completed⟩ := succeeded
  simp

/-- A loop completes only by an attempt that succeeds. -/
theorem Settles.succeeded {overBudget failed : WorkOrderResult}
    {completed : Reply → WorkOrderResult → Prop}
    (settles : Settles platform order deps adapter overBudget failed completed outcome actions)
    (overStatus : overBudget.status ≠ .completed) (failedStatus : failed.status ≠ .completed)
    (resolved : outcome = .ok result) (status : result.status = .completed) :
    ∃ reply, Succeeded platform order deps adapter reply actions ∧ completed reply result := by
  cases settles with
  | broken attempt => cases resolved
  | overBudget attempt closes => exact absurd (closes.result_eq resolved ▸ status) overStatus
  | completed attempt carries =>
    cases resolved
    exact ⟨_, attempt, carries⟩
  | failed attempt final closes => exact absurd (closes.result_eq resolved ▸ status) failedStatus

theorem ModelRun.completedOn
    (run : ModelRun platform order deps (modelPathClass order deps) outcome actions)
    (resolved : outcome = .ok result) (status : result.status = .completed) :
    ∃ entry, CompletedOn platform order deps entry result actions := by
  cases run with
  | missingRequest absent closes | noEligible unmatched closes | exhausted before unwired closes =>
    rw [closes.result_eq resolved] at status
    cases status
  | @settled tried rest entry _ _ last requested split before settles =>
    obtain ⟨reply, attempt, given, rfl, rfl⟩ := settles.succeeded (by simp [modelOverBudget])
      (by simp [modelFailed]) resolved status
    have wired : entry ∈ wiredModels platform order deps := by
      rw [split]
      simp
    exact ⟨entry, rfl, rfl, ⟨_, List.mem_append_right _ attempt.executed⟩,
      (List.mem_filter.mp wired).1⟩

/-- The capability path completes through a model only by escalation. -/
theorem CapabilityRun.completedOn
    (machine : isAiExecutionClass (orderRouting order deps).executionClass = false)
    (run : CapabilityRun platform order deps (orderRouting order deps) outcome actions)
    (resolved : outcome = .ok result) (status : result.status = .completed)
    (model : result.modelId ≠ none) :
    ∃ entry, CompletedOn platform order deps entry result actions := by
  cases run with
  | settled split before settles =>
    obtain ⟨reply, attempt, output, rfl, rfl⟩ := settles.succeeded
      (by simp [capabilityOverBudget]) (by simp [capabilityFailed]) resolved status
    exact absurd rfl model
  | unwired absent closes | exhausted wired before unreasoned closes =>
    rw [closes.result_eq resolved] at status
    cases status
  | escalated wired before reasoned escalated =>
    have cloud : modelPathClass order deps = .cloudAi := by simp [modelPathClass, machine]
    rw [← cloud] at escalated
    obtain ⟨entry, completed⟩ := escalated.completedOn resolved status
    exact ⟨entry, completed.append_left _⟩

theorem OrderRun.completedOn (run : OrderRun platform order deps outcome actions)
    (resolved : outcome = .ok result) (status : result.status = .completed)
    (model : result.modelId ≠ none) :
    ∃ entry, CompletedOn platform order deps entry result actions := by
  cases run with
  | broken => cases resolved
  | denied _ _ _ closes | approval _ _ _ closes =>
    rw [closes.result_eq resolved] at status
    cases status
  | routed allowed run =>
    cases run with
    | unplanned => cases resolved
    | human planned routed closes =>
      rw [closes.result_eq resolved] at status
      cases status
    | capability planned machine routed run =>
      obtain ⟨entry, completed⟩ := run.completedOn routed resolved status model
      exact ⟨entry, completed.append_left _⟩
    | model planned routed run =>
      have cls : modelPathClass order deps = (orderRouting order deps).executionClass := by
        simp [modelPathClass, routed]
      rw [← cls] at run
      obtain ⟨entry, completed⟩ := run.completedOn resolved status
      exact ⟨entry, completed.append_left _⟩

end Completion

/-- A run that completes through a model reports the Work Router's AI class, or cloud AI after an
escalation.  The model is a capable one of the registry, local where the order requires it, and it
runs where the class says as soon as every capable model does. -/
theorem reportedClass_coarse (platform : Platform) (order : WorkOrder) (deps : OrchestratorDeps)
    (history : History) :
    wp (executeWorkOrder platform order deps) history fun outcome actions =>
      ∀ result, outcome = .ok result → result.status = .completed → result.modelId ≠ none →
        ∃ entry ∈ deps.modelRegistry, CompletedOn platform order deps entry result actions ∧
          entry.Serves (modelRoutingInput order) ∧
          (order.requireLocal = some true → entry.privacy = .localNode) ∧
          ((∀ other ∈ deps.modelRegistry, other.Serves (modelRoutingInput order) →
            (modelPathClass order deps).Names other.privacy) →
              (modelPathClass order deps).Names entry.privacy) := by
  refine wp_mono executeWorkOrder_run fun outcome actions run result resolved status model => ?_
  obtain ⟨entry, completed⟩ := run.completedOn resolved status model
  obtain ⟨listed, serves⟩ := modelChain_serves completed.inChain
  exact ⟨entry, listed, completed, serves, serves.1.locality,
    fun agreed => agreed entry listed serves⟩

/-- A healthy local capability, and a cloud model for the orders that it takes. -/
def localAiDeps : OrchestratorDeps :=
  { localDeps with
    workRegistry := { items := [
      { id := "omen", executionClass := .localAi, provides := ["draft"], health := .healthy }] }
    modelRegistry := [cloudModel] }

/-- An order for the local capability completes on the cloud model. -/
theorem reportedClass_local_on_cloud :
    ¬ ∀ (platform : Platform) (order : WorkOrder) (deps : OrchestratorDeps) (history : History),
      wp (executeWorkOrder platform order deps) history fun outcome actions =>
        ∀ result executionClass entry, outcome = .ok result → result.status = .completed →
          result.executionClass = some executionClass → entry ∈ deps.modelRegistry →
          (∃ reply, .executed entry.ref (.ok reply) ∈ actions) →
          result.modelId = some entry.id → executionClass.Names entry.privacy := by
  intro agrees
  let order := { localOrder with requiredCapabilities := ["draft"], requireLocal := none }
  let given : ModelResult := {
    text := "cheap"
    usage := {
      inputTokens := 10, cachedInputTokens := none, outputTokens := 10, costUsd := 0,
      latencyMs := 10 } }
  let actions := (executeWorkOrder .plain order localAiDeps []).2
  have executed : actions[3]? = some (.executed cloudModel.ref (.ok (.model given))) := rfl
  have names := agrees .plain order localAiDeps [] (modelCompleted .localAi cloudModel given)
    .localAi cloudModel rfl rfl rfl List.mem_cons_self
    ⟨.model given, List.mem_of_getElem? executed⟩ rfl
  cases names.localAi rfl

end Donna
