import Donna.Orchestrator.WorkOrder
import Donna.Policy.Engine

/-! `executeWorkOrder`: policy gate, Work Router, the capability loop, the Model Router and the
model loop, with an event at every material transition. -/

namespace Donna

open Js Async Async.Program

abbrev Run (β : Type) := Program Action Thrown β

def liftTypeError {β : Type} (value : Except TypeError β) : Run β :=
  ofExcept (value.mapError .typeError)

inductive Attempt (ρ : Type)
  | overBudget
  | resolved (result : ρ)
  | rejected (error : Thrown)

section Execute

variable (platform : Platform) (order : WorkOrder) (deps : OrchestratorDeps)

def WorkOrder.event (order : WorkOrder) (fresh : Fresh) (type : EventType) : EventEnvelope :=
  createEvent fresh {
    type := type
    organizationId := order.organizationId
    actor := order.actor.getD { type := .orchestrator, id := "orchestrator" }
    taskId := order.taskId
    correlationId := order.correlationId }

def emit (type : EventType) : Run Unit := do
  let fresh ← observe platform.fresh
  let event := order.event fresh type
  call (fun history => deps.bus.publish history event) (.published event)

/-- Emit the outcome event of a run and return its result. -/
def finish (type : EventType) (result : WorkOrderResult) : Run WorkOrderResult := do
  emit platform order deps type
  pure result

def checkOrderBudget (realm : Realm) (gate : JsValue) (est : CostEstimate) :
    Except TypeError BudgetCheck := do
  let budget ← gate.get "budget"
  let spentUsd ← gate.get "spentUsd"
  checkBudget realm budget spentUsd est.costUsd

/-- Pre-flight budget gate: whether the estimate of the next attempt is allowed. -/
def withinBudget (estimate : Run CostEstimate) : Run Bool :=
  match order.budget with
  | none => pure true
  | some gate => do
    let est ← estimate
    let check ← liftTypeError (checkOrderBudget platform.realm gate est)
    pure check.allowed

/-- One attempt at a wired adapter: the budget gate, the two start events, and the `try` block. -/
def attemptAdapter {ρ : Type} (estimate : Run CostEstimate) (block : Run ρ) : Run (Attempt ρ) := do
  let allowed ← withinBudget platform order estimate
  if !allowed then
    pure .overBudget
  else
    emit platform order deps .workerStarted
    emit platform order deps .toolCalled
    match ← attempt block with
    | .ok result => pure (.resolved result)
    | .error error => pure (.rejected error)

def workRoutingInput : WorkRoutingInput where
  requiredCapabilities := order.requiredCapabilities
  prefersHuman := order.prefersHuman
  needsReasoning := order.needsReasoning

def modelRoutingInput : ModelRoutingInput where
  reasoningTier := order.reasoningTier.getD 5
  needsTools := order.needsTools
  needsVision := order.needsVision
  requireLocal := order.requireLocal
  minContextTokens := order.minContextTokens

def capabilityContext : ExecutionContext := { correlationId := order.correlationId }

/-- The ledger record of a capability: no tokens, keyed by capability id. -/
def capabilityRecord (candidate : RegisteredCapability) (usage : Option AdapterUsage) :
    UsageRecord where
  modelId := candidate.id
  provider := "capability"
  inputTokens := 0
  cachedInputTokens := none
  outputTokens := 0
  costUsd := (usage.map (·.costUsd)).getD 0
  latencyMs := (usage.map (·.latencyMs)).getD 0
  taskId := order.taskId

def modelRecord (entry : ModelEntry) (usage : ModelUsage) : UsageRecord where
  modelId := entry.id
  provider := entry.provider.name
  inputTokens := usage.inputTokens
  cachedInputTokens := usage.cachedInputTokens
  outputTokens := usage.outputTokens
  costUsd := usage.costUsd
  latencyMs := usage.latencyMs
  taskId := order.taskId

/-! The results of a run, by the point at which it returns. -/

def capabilityCompleted (candidate : RegisteredCapability) (output : JsValue) :
    WorkOrderResult where
  status := .completed
  executionClass := some candidate.executionClass
  output := some output
  capabilityId := some candidate.id

def capabilityOverBudget (candidate : RegisteredCapability) : WorkOrderResult where
  status := .budgetExceeded
  executionClass := some candidate.executionClass
  capabilityId := some candidate.id

def capabilityFailed (candidate : RegisteredCapability) : WorkOrderResult where
  status := .failed
  executionClass := some candidate.executionClass
  reason := some .adapterError
  capabilityId := some candidate.id

def capabilityUnwired (routing : WorkRoutingDecision) : WorkOrderResult where
  status := .blocked
  executionClass := some routing.executionClass
  reason := some .noCapabilityAdapter
  capabilityId := routing.capabilityId

def capabilityExhausted (routing : WorkRoutingDecision) : WorkOrderResult where
  status := .failed
  executionClass := some routing.executionClass
  reason := some .adapterError
  capabilityId := routing.capabilityId

def modelCompleted (executionClass : ExecutionClass) (entry : ModelEntry) (result : ModelResult) :
    WorkOrderResult where
  status := .completed
  executionClass := some executionClass
  modelId := some entry.id
  text := some result.text

def modelOverBudget (executionClass : ExecutionClass) (entry : ModelEntry) : WorkOrderResult where
  status := .budgetExceeded
  executionClass := some executionClass
  modelId := some entry.id

/-- A failure of the model path, which names no model. -/
def modelFailed (executionClass : ExecutionClass) (reason : ResultReason) : WorkOrderResult where
  status := .failed
  executionClass := some executionClass
  reason := some reason

def awaitingHuman (routing : WorkRoutingDecision) : WorkOrderResult where
  status := .awaitingHuman
  executionClass := some .human
  reason := some (.routing routing.reason)

def policyDenied (decision : PolicyDecision) : WorkOrderResult where
  status := .denied
  reason := some (.policy decision.reason)

def policyApproval (decision : PolicyDecision) : WorkOrderResult where
  status := .approvalRequired
  reason := some (.policy decision.reason)

def capabilityBlock (candidate : RegisteredCapability) (adapter : CapabilityAdapter) :
    Run WorkOrderResult := do
  let output ← call (fun history => adapter.execute history order.capabilityInput
    (capabilityContext order)) fun reply => .executed (.capability candidate.id) (reply.map .output)
  let usage ← observe adapter.reportUsage
  perform (.recorded (capabilityRecord order candidate usage))
  finish platform order deps .taskCompleted (capabilityCompleted candidate output)

/-- One pass of the capability loop; its state is whether any adapter was attempted. -/
def capabilityPass (candidate : RegisteredCapability) (attempted : Bool) :
    Run (Flow Bool WorkOrderResult) :=
  match deps.capabilityAdapter candidate.id with
  | none => pure (.next attempted) -- matched in the registry but not wired
  | some adapter => do
    let estimate := call (fun history => adapter.estimate history order.capabilityInput
      (capabilityContext order)) (.estimated (.capability candidate.id))
    match ← attemptAdapter platform order deps estimate
        (capabilityBlock platform order deps candidate adapter) with
    | .overBudget =>
      let result ← finish platform order deps .taskBlocked (capabilityOverBudget candidate)
      pure (.done result)
    | .resolved result => pure (.done result)
    | .rejected error =>
      -- Only a retryable failure falls through to the next candidate.
      if !isRetryable (adapter.classifyError error) then
        let result ← finish platform order deps .taskFailed (capabilityFailed candidate)
        pure (.done result)
      else
        pure (.next true)

def modelBlock (executionClass : ExecutionClass) (request : ModelRequest) (entry : ModelEntry)
    (adapter : ModelAdapter) : Run WorkOrderResult := do
  let result ← call (fun history => adapter.execute history request {})
    fun reply => .executed (.model entry.id) (reply.map .model)
  perform (.recorded (modelRecord order entry result.usage))
  finish platform order deps .taskCompleted (modelCompleted executionClass entry result)

/-- One pass of the model loop; its state is the last error class. -/
def modelPass (executionClass : ExecutionClass) (request : ModelRequest) (entry : ModelEntry)
    (lastErrorClass : Option ErrorClass) : Run (Flow (Option ErrorClass) WorkOrderResult) :=
  match deps.resolveModelAdapter entry.id with
  | none => pure (.next lastErrorClass)
  | some adapter => do
    let estimate := call (fun history => adapter.estimate history request {})
      (.estimated (.model entry.id))
    match ← attemptAdapter platform order deps estimate
        (modelBlock platform order deps executionClass request entry adapter) with
    | .overBudget =>
      let result ← finish platform order deps .taskBlocked (modelOverBudget executionClass entry)
      pure (.done result)
    | .resolved result => pure (.done result)
    | .rejected error =>
      if !isRetryable (adapter.classifyError error) then
        pure (.stop (some (adapter.classifyError error)))
      else
        pure (.next (some (adapter.classifyError error)))

def modelPath (executionClass : ExecutionClass) : Run WorkOrderResult :=
  match order.modelRequest with
  | none =>
    finish platform order deps .taskFailed (modelFailed executionClass .missingModelRequest)
  | some request =>
    match routeModel platform.realm (modelRoutingInput order) deps.modelRegistry with
    | none =>
      finish platform order deps .taskFailed (modelFailed executionClass .noEligibleModel)
    | some decision => do
      match ← forOf (modelPass platform order deps executionClass request)
          (decision.model :: decision.fallbacks) none with
      | .returned result => pure result
      | .finished lastErrorClass =>
        finish platform order deps .taskFailed (modelFailed executionClass
          (if lastErrorClass.isNone then .noAdapter else .adapterError))

/-- The capability loop, and what follows once its candidates are exhausted. -/
def capabilityPath (routing : WorkRoutingDecision) : Run WorkOrderResult := do
  match ← forOf (capabilityPass platform order deps)
      (candidateCapabilities (workRoutingInput order) deps.workRegistry) false with
  | .returned result => pure result
  | .finished attempted =>
    if !attempted then
      -- Matched in the registry but no adapter is wired: park, don't escalate.
      finish platform order deps .taskBlocked (capabilityUnwired routing)
    else if order.needsReasoning ≠ some true then
      finish platform order deps .taskFailed (capabilityExhausted routing)
    else
      -- Cross-class fallback from capabilities to AI.
      modelPath platform order deps .cloudAi

/-- Routing, and the path of the class that it picks. -/
def routeOrder : Run WorkOrderResult := do
  let routing := routeWork (workRoutingInput order) deps.workRegistry
  emit platform order deps .taskPlanned
  if routing.executionClass = .human then
    finish platform order deps .taskBlocked (awaitingHuman routing)
  else if !isAiExecutionClass routing.executionClass then
    capabilityPath platform order deps routing
  else
    modelPath platform order deps routing.executionClass

/-- Execute one work order end to end. -/
def executeWorkOrder : Run WorkOrderResult :=
  match order.policy with
  | none => routeOrder platform order deps
  | some policy => do
    let decision ← liftTypeError (evaluate platform.realm policy)
    match decision.effect with
    | .deny => finish platform order deps .taskBlocked (policyDenied decision)
    | .requiresApproval => finish platform order deps .approvalRequested (policyApproval decision)
    | .allow => routeOrder platform order deps

end Execute

end Donna
