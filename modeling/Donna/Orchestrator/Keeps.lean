import Donna.Orchestrator.Execute

/-! Relations between a history and the actions of a run after it.  A run of the orchestrator adds
five kinds of stretches to its history; a relation that each of them keeps is kept by every run. -/

namespace Donna

open Js Async Async.Program

/-- A relation that each stretch of a run keeps. -/
structure RunRelation (order : WorkOrder) (deps : OrchestratorDeps)
    (rel : History → List Action → Prop) : Prop where
  chains : Chains rel
  published : ∀ history event reply, rel history [.published event reply]
  estimated : ∀ history adapter reply, rel history [.estimated adapter reply]
  failed : ∀ {candidate : RegisteredCapability} {adapter : CapabilityAdapter},
    deps.capabilityAdapter candidate.id = some adapter → ∀ history error,
      adapter.execute history order.capabilityInput (capabilityContext order) = .error error →
      rel history [.executed (.capability candidate.id) (.error error)]
  /-- A capability that resolved is asked for its usage at once, and recorded with it. -/
  capability : ∀ {candidate : RegisteredCapability} {adapter : CapabilityAdapter},
    deps.capabilityAdapter candidate.id = some adapter → ∀ history output,
      adapter.execute history order.capabilityInput (capabilityContext order) = .ok output →
      rel history [.executed (.capability candidate.id) (.ok (.output output)),
        .recorded (capabilityRecord order candidate (adapter.reportUsage
          (history ++ [.executed (.capability candidate.id) (.ok (.output output))])))]
  modelFailed : ∀ (entry : ModelEntry) history error,
    rel history [.executed (.model entry.id) (.error error)]
  model : ∀ (entry : ModelEntry) history result,
    rel history [.executed (.model entry.id) (.ok (.model result)),
      .recorded (modelRecord order entry result.usage)]

namespace RunRelation

variable {platform : Platform} {order : WorkOrder} {deps : OrchestratorDeps}
  {rel : History → List Action → Prop} (kept : RunRelation order deps rel)

include kept

theorem keeps_emit (type : EventType) : Keeps rel (emit platform order deps type) :=
  .bind kept.chains (.observe kept.chains _) fun _ => .call fun _ => kept.published _ _ _

theorem keeps_finish (type : EventType) (result : WorkOrderResult) :
    Keeps rel (finish platform order deps type result) :=
  .bind kept.chains (kept.keeps_emit type) fun _ => .pure kept.chains _

theorem keeps_withinBudget (adapter : AdapterRef) (reply : History → Except Thrown CostEstimate) :
    Keeps rel (withinBudget platform order (call reply (.estimated adapter))) := by
  unfold withinBudget
  split
  · exact .pure kept.chains _
  · refine .bind kept.chains (.call fun _ => kept.estimated _ _ _) fun est => ?_
    exact .bind kept.chains (.ofExcept kept.chains _) fun _ =>
      .pure kept.chains _

theorem keeps_attemptAdapter {ρ : Type} (adapter : AdapterRef)
    (reply : History → Except Thrown CostEstimate) {block : Run ρ} (tried : Keeps rel block) :
    Keeps rel
      (attemptAdapter platform order deps (call reply (.estimated adapter)) block) := by
  refine .bind kept.chains (kept.keeps_withinBudget adapter reply) fun allowed => ?_
  split
  · exact .pure kept.chains _
  · refine .bind kept.chains (kept.keeps_emit _) fun _ => ?_
    refine .bind kept.chains (kept.keeps_emit _) fun _ => ?_
    refine .bind kept.chains (.attempt tried) fun outcome => ?_
    cases outcome <;> exact .pure kept.chains _

theorem keeps_capabilityBlock {candidate : RegisteredCapability} {adapter : CapabilityAdapter}
    (wired : deps.capabilityAdapter candidate.id = some adapter) :
    Keeps rel (capabilityBlock platform order deps candidate adapter) := by
  intro history
  rw [capabilityBlock, wp_bind, wp_call]
  cases executed : adapter.execute history order.capabilityInput (capabilityContext order) with
  | error error => exact kept.failed wired history error executed
  | ok output =>
    simp only [Except.map, wp_bind, wp_observe, wp_perform]
    refine wp_mono (kept.keeps_finish _ _ _) fun _ more later => ?_
    have whole : rel history (_ ++ more) :=
      kept.chains.append (kept.capability wired history output executed) (by simpa using later)
    exact whole

theorem keeps_modelBlock (executionClass : ExecutionClass) (request : ModelRequest)
    (entry : ModelEntry) (adapter : ModelAdapter) :
    Keeps rel (modelBlock platform order deps executionClass request entry adapter) := by
  intro history
  rw [modelBlock, wp_bind, wp_call]
  cases executed : adapter.execute history request {} with
  | error error => exact kept.modelFailed entry history error
  | ok result =>
    simp only [Except.map, wp_bind, wp_perform]
    refine wp_mono (kept.keeps_finish _ _ _) fun _ more later => ?_
    have whole : rel history (_ ++ more) :=
      kept.chains.append (kept.model entry history result) (by simpa using later)
    exact whole

theorem keeps_capabilityPass (candidate : RegisteredCapability) (attempted : Bool) :
    Keeps rel (capabilityPass platform order deps candidate attempted) := by
  unfold capabilityPass
  split
  case h_1 => exact .pure kept.chains _
  case h_2 adapter wired =>
    refine .bind kept.chains
      (kept.keeps_attemptAdapter _ _ (kept.keeps_capabilityBlock wired)) fun attempt => ?_
    cases attempt with
    | overBudget =>
      exact .bind kept.chains (kept.keeps_finish _ _) fun _ => .pure kept.chains _
    | resolved result => exact .pure kept.chains _
    | rejected error =>
      dsimp only
      split
      · exact .bind kept.chains (kept.keeps_finish _ _) fun _ => .pure kept.chains _
      · exact .pure kept.chains _

theorem keeps_modelPass (executionClass : ExecutionClass) (request : ModelRequest)
    (entry : ModelEntry) (lastErrorClass : Option ErrorClass) :
    Keeps rel
      (modelPass platform order deps executionClass request entry lastErrorClass) := by
  unfold modelPass
  split
  case h_1 => exact .pure kept.chains _
  case h_2 adapter wired =>
    refine .bind kept.chains
      (kept.keeps_attemptAdapter _ _ (kept.keeps_modelBlock _ _ _ _)) fun attempt => ?_
    cases attempt with
    | overBudget =>
      exact .bind kept.chains (kept.keeps_finish _ _) fun _ => .pure kept.chains _
    | resolved result => exact .pure kept.chains _
    | rejected error =>
      dsimp only
      split <;> exact .pure kept.chains _

theorem keeps_modelPath (executionClass : ExecutionClass) :
    Keeps rel (modelPath platform order deps executionClass) := by
  unfold modelPath
  split
  · exact kept.keeps_finish _ _
  split
  · exact kept.keeps_finish _ _
  refine .bind kept.chains
    (.forOf kept.chains _ _ (kept.keeps_modelPass _ _)) fun ending => ?_
  cases ending with
  | returned result => exact .pure kept.chains _
  | finished lastErrorClass => exact kept.keeps_finish _ _

theorem keeps_capabilityPath (routing : WorkRoutingDecision) :
    Keeps rel (capabilityPath platform order deps routing) := by
  refine .bind kept.chains
    (.forOf kept.chains _ _ (kept.keeps_capabilityPass)) fun ending => ?_
  cases ending with
  | returned result => exact .pure kept.chains _
  | finished attempted =>
    dsimp only
    split
    · exact kept.keeps_finish _ _
    split
    · exact kept.keeps_finish _ _
    · exact kept.keeps_modelPath _

theorem keeps_routeOrder : Keeps rel (routeOrder platform order deps) := by
  refine .bind kept.chains (kept.keeps_emit _) fun _ => ?_
  split
  · exact kept.keeps_finish _ _
  split
  · exact kept.keeps_capabilityPath _
  · exact kept.keeps_modelPath _

theorem keeps_executeWorkOrder : Keeps rel (executeWorkOrder platform order deps) := by
  unfold executeWorkOrder
  split
  · exact kept.keeps_routeOrder
  refine .bind kept.chains (.ofExcept kept.chains _) fun decision => ?_
  split
  · exact kept.keeps_finish _ _
  · exact kept.keeps_finish _ _
  · exact kept.keeps_routeOrder

end RunRelation

end Donna
