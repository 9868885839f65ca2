import Donna.Orchestrator.Tried
import Donna.Routing.ModelChoice

/-! Where the models of a run may execute.  The chain that the orchestrator walks is the router's
choice, so an order that must stay local only ever calls adapters of local models. -/

namespace Donna

open Js Async Async.Program

/-- The id under which a reference names a model. -/
def AdapterRef.modelId : AdapterRef → Option String
  | .model id => some id
  | .capability _ => none

/-- The models whose `execute` is called, by id and in order. -/
def calledModels (actions : List Action) : List String :=
  (called actions).filterMap AdapterRef.modelId

theorem filterMap_modelId (capabilities : List RegisteredCapability) (models : List ModelEntry) :
    (capabilities.map RegisteredCapability.ref ++ models.map ModelEntry.ref).filterMap
      AdapterRef.modelId = models.map ModelEntry.id := by
  simp [List.filterMap_append, List.filterMap_map, Function.comp_def, RegisteredCapability.ref,
    ModelEntry.ref, AdapterRef.modelId]

section Locality

variable {platform : Platform} {order : WorkOrder} {deps : OrchestratorDeps}
  {outcome : Except Thrown WorkOrderResult} {actions : List Action}

theorem modelChain_serves {entry : ModelEntry} (present : entry ∈ modelChain platform order deps) :
    entry ∈ deps.modelRegistry ∧ entry.Serves (modelRoutingInput order) := by
  unfold modelChain at present
  split at present
  next => simp at present
  next decision routed =>
    have choice := routeModel_choice routed
    exact ⟨choice.listed.subset present, choice.serves entry present⟩

/-- The models that a run calls are those of some entries of the chain, in its order. -/
theorem OrderRun.calledModels_eq (run : OrderRun platform order deps outcome actions) :
    ∃ entries : List ModelEntry, entries.Sublist (modelChain platform order deps) ∧
      calledModels actions = entries.map ModelEntry.id := by
  obtain ⟨capabilities, -, tries⟩ := run.tries
  have models := tries.called.filterMap AdapterRef.modelId
  rw [filterMap_modelId] at models
  obtain ⟨entries, isPrefix, same⟩ := List.prefix_map_iff.mp models
  exact ⟨entries, isPrefix.sublist.trans List.filter_sublist, same⟩

/-- An order that must stay local calls local models of the registry only. -/
theorem OrderRun.calledModels_local (run : OrderRun platform order deps outcome actions)
    (required : order.requireLocal = some true) :
    ∃ entries : List ModelEntry, entries.Sublist (modelChain platform order deps) ∧
      calledModels actions = entries.map ModelEntry.id ∧
      ∀ entry ∈ entries, entry ∈ deps.modelRegistry ∧ entry.privacy = .localNode := by
  obtain ⟨entries, inChain, same⟩ := run.calledModels_eq
  refine ⟨entries, inChain, same, fun entry present => ?_⟩
  obtain ⟨listed, serves⟩ := modelChain_serves (inChain.subset present)
  exact ⟨listed, serves.1.locality required⟩

end Locality

/-- The router decides nothing only where no model of the registry meets the constraints at the
tier, and otherwise a choice; so an order that must stay local calls local models only. -/
theorem routeModel_optimal :
    (∀ (realm : Realm) (input : ModelRoutingInput) (registry : List ModelEntry),
      (routeModel realm input registry = none ↔ ∀ model ∈ registry,
        ¬ (model.Meets input ∧ input.reasoningTier ≤ model.tierRange.2)) ∧
      ∀ decision, routeModel realm input registry = some decision →
        Choice registry input decision) ∧
    ∀ (platform : Platform) (order : WorkOrder) (deps : OrchestratorDeps) (history : History),
      order.requireLocal = some true →
      wp (executeWorkOrder platform order deps) history fun _ actions =>
        ∃ entries : List ModelEntry, entries.Sublist (modelChain platform order deps) ∧
          calledModels actions = entries.map ModelEntry.id ∧
          ∀ entry ∈ entries, entry ∈ deps.modelRegistry ∧ entry.privacy = .localNode := by
  constructor
  · intro realm input registry
    exact ⟨routeModel_eq_none_iff realm, fun decision routed => routeModel_choice routed⟩
  · intro platform order deps history required
    exact wp_mono executeWorkOrder_run fun outcome actions run => run.calledModels_local required

/-- A cloud model that covers the tiers 0 to 4. -/
def cloudModel : ModelEntry where
  id := "cheap"
  provider := .anthropic
  contextTokens := 200000
  inputCostPer1M := 1
  outputCostPer1M := 5
  cachedInputCostPer1M := none
  capabilities := { tools := true, vision := true }
  tierRange := (0, 4)
  privacy := .cloud
  available := true

/-- A model of the local node, free of charge. -/
def localModel : ModelEntry where
  id := "local"
  provider := .localNode
  contextTokens := 200000
  inputCostPer1M := 0
  outputCostPer1M := 0
  cachedInputCostPer1M := none
  capabilities := { tools := false, vision := false }
  tierRange := (0, 3)
  privacy := .localNode
  available := true

def localRequest : ModelRoutingInput where
  reasoningTier := 2
  needsTools := none
  needsVision := none
  requireLocal := some true
  minContextTokens := none

/-- A text order that must stay on the local node. -/
def localOrder : WorkOrder where
  organizationId := "acme"
  requiredCapabilities := []
  needsReasoning := some true
  reasoningTier := some 2
  requireLocal := some true
  modelRequest := some {
    messages := [{ role := "user", content := "Draft the letter." }]
    maxOutputTokens := none
    reasoningTier := none }

/-- Both models are wired, and both reply. -/
def localDeps : OrchestratorDeps where
  bus := BufferingEventBus
  workRegistry := { items := [] }
  modelRegistry := [cloudModel, localModel]
  resolveModelAdapter id := some {
    estimate := fun _ _ _ => .ok { costUsd := 0, latencyMs := 10, confidence := 1 }
    execute := fun _ _ _ => .ok {
      text := id
      usage := {
        inputTokens := 10, cachedInputTokens := none, outputTokens := 10, costUsd := 0,
        latencyMs := 10 } }
    classifyError := fun _ => .unknown }
  resolveCapabilityAdapter := none

theorem routeModel_optimal_local :
    Choice [cloudModel, localModel] localRequest
      { model := localModel, fallbacks := [], reason := "Cheapest model covering tier 2: local." } ∧
    wp (executeWorkOrder .plain localOrder localDeps) [] fun _ actions =>
      ∃ entries : List ModelEntry, entries.Sublist (modelChain .plain localOrder localDeps) ∧
        calledModels actions = entries.map ModelEntry.id ∧
        ∀ entry ∈ entries, entry ∈ localDeps.modelRegistry ∧ entry.privacy = .localNode :=
  ⟨(routeModel_optimal.1 .plain localRequest [cloudModel, localModel]).2 _ (by decide +kernel),
    routeModel_optimal.2 .plain localOrder localDeps [] rfl⟩

end Donna
