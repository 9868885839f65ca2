import Donna.Js.Async
import Donna.Orchestrator.Adapters
import Donna.Routing.ModelRouter
import Donna.Routing.WorkRouter

/-! Work orders, their results, and the dependencies of the orchestrator.  A run of the orchestrator
is recorded as the list of its actions on the environment: events handed to the bus, estimates and
executions of adapters, and records of the ledger. -/

namespace Donna

open Js

/-- A unit of work handed to the orchestrator.  The structured gates `policy` and `budget` are the
values that arrived: at run time nothing has checked what is in them. -/
structure WorkOrder where
  organizationId : String
  taskId : Option String := none
  correlationId : Option String := none
  actor : Option Actor := none
  requiredCapabilities : List String
  prefersHuman : Option Bool := none
  needsReasoning : Option Bool := none
  reasoningTier : Option ℚ := none
  needsTools : Option Bool := none
  needsVision : Option Bool := none
  requireLocal : Option Bool := none
  minContextTokens : Option ℚ := none
  modelRequest : Option ModelRequest := none
  capabilityInput : Option JsValue := none
  policy : Option JsValue := none
  budget : Option JsValue := none

def executeWorkOrderTask : String := "execute-work-order"

inductive WorkOrderStatus
  | completed
  | awaitingHuman
  | approvalRequired
  | denied
  | blocked
  | budgetExceeded
  | failed
  deriving DecidableEq

/-- The reason of a result: the policy engine's, the Work Router's, or the orchestrator's own. -/
inductive ResultReason
  | policy (reason : PolicyReason)
  | routing (reason : WorkRoutingReason)
  | adapterError
  | noCapabilityAdapter
  | missingModelRequest
  | noEligibleModel
  | noAdapter
  deriving DecidableEq

structure WorkOrderResult where
  status : WorkOrderStatus
  executionClass : Option ExecutionClass := none
  modelId : Option String := none
  capabilityId : Option String := none
  text : Option String := none
  output : Option JsValue := none
  reason : Option ResultReason := none

/-- An adapter as the orchestrator names it: by the id of the capability or of the model. -/
inductive AdapterRef
  | capability (id : String)
  | model (id : String)
  deriving DecidableEq

inductive Reply
  | output (value : JsValue)
  | model (result : ModelResult)

/-- An action of a run on its environment, with the environment's reply. -/
inductive Action
  | published (event : EventEnvelope) (reply : Except Thrown Unit)
  | estimated (adapter : AdapterRef) (reply : Except Thrown CostEstimate)
  | executed (adapter : AdapterRef) (reply : Except Thrown Reply)
  | recorded (entry : UsageRecord)

abbrev History := List Action

/-- `EventBus.publish`: it resolves or rejects by whatever has happened. -/
structure EventBus where
  publish : History → EventEnvelope → Except Thrown Unit

/-- The write-only bus that collects events in memory; its buffer is the published part of the
history, which `drain` reads. -/
def BufferingEventBus : EventBus where
  publish _ _ := .ok ()

def drain (history : History) : List EventEnvelope :=
  history.filterMap fun
    | .published event _ => some event
    | _ => none

structure CapabilityAdapter where
  estimate : History → Option JsValue → ExecutionContext → Except Thrown CostEstimate
  execute : History → Option JsValue → ExecutionContext → Except Thrown JsValue
  reportUsage : History → Option AdapterUsage
  classifyError : Thrown → ErrorClass

structure ModelAdapter where
  estimate : History → ModelRequest → ExecutionContext → Except Thrown CostEstimate
  execute : History → ModelRequest → ExecutionContext → Except Thrown ModelResult
  classifyError : Thrown → ErrorClass

structure OrchestratorDeps where
  bus : EventBus
  workRegistry : CapabilityRegistry
  modelRegistry : List ModelEntry
  resolveModelAdapter : String → Option ModelAdapter
  /-- Absent when no capability adapter is wired at all. -/
  resolveCapabilityAdapter : Option (String → Option CapabilityAdapter)

/-- The platform under a run: the language's open parts, random ids and the clock. -/
structure Platform where
  realm : Realm
  fresh : History → Fresh

namespace OrchestratorDeps

def capabilityAdapter (deps : OrchestratorDeps) (id : String) : Option CapabilityAdapter :=
  deps.resolveCapabilityAdapter.bind fun resolve => resolve id

/-- How the adapter that is wired under `adapter` classifies an error. -/
def classifyError (deps : OrchestratorDeps) (adapter : AdapterRef) (error : Thrown) : ErrorClass :=
  match adapter with
  | .capability id => ((deps.capabilityAdapter id).map (·.classifyError error)).getD .unknown
  | .model id => ((deps.resolveModelAdapter id).map (·.classifyError error)).getD .unknown

end OrchestratorDeps

end Donna
