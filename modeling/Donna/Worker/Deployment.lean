import Donna.Orchestrator.Catalog
import Donna.Orchestrator.Locality
import Donna.Worker.ModelAdapters
import Donna.Worker.Outcome

/-! The worker as its entry point wires it from the environment: the shipped model registry, the
model adapters of the resolver, and the CRM as the one capability that may be configured.  Whatever
order arrives, only services that are configured are asked, and an order that is to stay local asks
no model at all. -/

namespace Donna

open Js Async Async.Program

/-! ### The shipped registry -/

def cloudCaps : ModelCapabilityFlags where
  tools := true
  vision := true

/-- `MODEL_REGISTRY`. -/
def modelRegistry : List ModelEntry := [
  { id := "claude-haiku-4-5"
    provider := .anthropic
    contextTokens := 200000
    inputCostPer1M := 1
    outputCostPer1M := 5
    cachedInputCostPer1M := some (1 / 10)
    capabilities := cloudCaps
    tierRange := (0, 4)
    privacy := .cloud
    available := true },
  { id := "claude-sonnet-5"
    provider := .anthropic
    contextTokens := 1000000
    inputCostPer1M := 2
    outputCostPer1M := 10
    cachedInputCostPer1M := some (2 / 10)
    capabilities := cloudCaps
    tierRange := (3, 7)
    privacy := .cloud
    available := true },
  { id := "claude-opus-5"
    provider := .anthropic
    contextTokens := 1000000
    inputCostPer1M := 5
    outputCostPer1M := 25
    cachedInputCostPer1M := some (5 / 10)
    capabilities := cloudCaps
    tierRange := (6, 9)
    privacy := .cloud
    available := true },
  { id := "claude-fable-5-1"
    provider := .anthropic
    contextTokens := 1000000
    inputCostPer1M := 10
    outputCostPer1M := 50
    cachedInputCostPer1M := some (25 / 100)
    capabilities := cloudCaps
    tierRange := (8, 10)
    privacy := .cloud
    available := true },
  { id := "openai-frontier-placeholder"
    provider := .openai
    contextTokens := 400000
    inputCostPer1M := 5
    outputCostPer1M := 20
    cachedInputCostPer1M := none
    capabilities := cloudCaps
    tierRange := (6, 9)
    privacy := .cloud
    available := false },
  { id := "local-small-placeholder"
    provider := .localNode
    contextTokens := 32000
    inputCostPer1M := 0
    outputCostPer1M := 0
    cachedInputCostPer1M := none
    capabilities := { tools := false, vision := false }
    tierRange := (0, 3)
    privacy := .localNode
    available := false }]

/-! ### The composition root -/

/-- What the adapters do once they are constructed: with a model binding, and with the token and the
location of the CRM. -/
structure Vendors where
  model : ModelBinding → ModelAdapter
  ghl : String → Option String → CapabilityAdapter

section Wiring

variable (vendors : Vendors) (bus : EventBus) (env : ProcessEnv)

def buildCapabilityCatalog : Option CapabilityCatalog :=
  (presentVar (env "GHL_TOKEN")).map fun token =>
    CapabilityCatalog.empty.register {
        id := "ghl.crm"
        capabilities := ["crm", "ghl"]
        adapter := vendors.ghl token (presentVar (env "GHL_LOCATION_ID")) }
      .automation { provides := some ["crm"] }

/-- The dependencies that `runWorker` makes. -/
def workerDeps : OrchestratorDeps where
  bus := bus
  workRegistry := ((buildCapabilityCatalog vendors env).map (·.toWorkRegistry)).getD ⟨[]⟩
  modelRegistry := modelRegistry
  resolveModelAdapter id := (configured modelRegistry env id).map vendors.model
  resolveCapabilityAdapter := (buildCapabilityCatalog vendors env).map (·.resolver)

end Wiring

/-- The CRM is configured and provides all that an order requires. -/
def ServedByCrm (env : ProcessEnv) (order : WorkOrder) : Prop :=
  (presentVar (env "GHL_TOKEN")).isSome ∧ ∀ name ∈ order.requiredCapabilities, name = "crm"

/-- The statuses of a run that hands its order to a person. -/
def Parked (status : WorkOrderStatus) : Prop :=
  status = .denied ∨ status = .approvalRequired ∨ status = .awaitingHuman

section Deployment

variable {vendors : Vendors} {bus : EventBus} {env : ProcessEnv} {order : WorkOrder}
  {platform : Platform}

def ghlCapability : RegisteredCapability where
  id := "ghl.crm"
  executionClass := .automation
  provides := ["crm"]
  health := .healthy

theorem items_workRegistry : (workerDeps vendors bus env).workRegistry.items =
    if (presentVar (env "GHL_TOKEN")).isSome then [ghlCapability] else [] := by
  simp only [workerDeps, buildCapabilityCatalog]
  cases presentVar (env "GHL_TOKEN") <;> rfl

theorem healthyProviding_workRegistry :
    (workerDeps vendors bus env).workRegistry.healthyProviding order.requiredCapabilities =
      if (presentVar (env "GHL_TOKEN")).isSome ∧ ∀ name ∈ order.requiredCapabilities, name = "crm"
      then [ghlCapability] else [] := by
  rw [CapabilityRegistry.healthyProviding, items_workRegistry]
  split
  · next token => simp [token, ghlCapability, List.filter_cons]
  · next unset => simp [unset]

theorem candidate_of_deployed {candidate : RegisteredCapability}
    (present : candidate ∈ candidateCapabilities (workRoutingInput order)
      (workerDeps vendors bus env).workRegistry) :
    candidate = ghlCapability ∧ ServedByCrm env order := by
  unfold candidateCapabilities at present
  split at present
  · cases present
  · rw [(List.perm_insertionSort _ _).mem_iff] at present
    have provides : candidate ∈ (workerDeps vendors bus env).workRegistry.healthyProviding
      order.requiredCapabilities := present
    rw [healthyProviding_workRegistry] at provides
    split at provides
    · next served => exact ⟨List.mem_singleton.mp provides, served⟩
    · cases provides

/-- The models of the shipped registry that are available are all Anthropic's. -/
theorem available_modelRegistry {entry : ModelEntry} (listed : entry ∈ modelRegistry)
    (available : entry.available = true) :
    entry.privacy = .cloud ∧
      ∀ env, configured modelRegistry env entry.id = some (.anthropic entry) := by
  simp only [modelRegistry, List.mem_cons, List.not_mem_nil, or_false] at listed
  rcases listed with rfl | rfl | rfl | rfl | rfl | rfl
  · exact ⟨rfl, fun _ => rfl⟩
  · exact ⟨rfl, fun _ => rfl⟩
  · exact ⟨rfl, fun _ => rfl⟩
  · exact ⟨rfl, fun _ => rfl⟩
  · cases available
  · cases available

theorem capability_asked {outcome : Except Thrown WorkOrderResult} {actions : List Action}
    (run : OrderRun platform order (workerDeps vendors bus env).buffered outcome actions)
    {id : String} (isAsked : .capability id ∈ asked actions) :
    id = "ghl.crm" ∧ ServedByCrm env order := by
  obtain ⟨capabilities, chosen, tries⟩ := run.tries
  rcases List.mem_append.mp (tries.asked isAsked) with capability | model
  · obtain ⟨candidate, inLoop, same⟩ := List.mem_map.mp capability
    rcases chosen with rfl | rfl
    · cases inLoop
    · obtain ⟨rfl, served⟩ := candidate_of_deployed (List.mem_filter.mp inLoop).1
      exact ⟨(AdapterRef.capability.inj same).symm, served⟩
  · obtain ⟨entry, -, same⟩ := List.mem_map.mp model
    cases same

theorem model_asked {outcome : Except Thrown WorkOrderResult} {actions : List Action}
    (run : OrderRun platform order (workerDeps vendors bus env).buffered outcome actions)
    {id : String} (isAsked : .model id ∈ asked actions) : order.requireLocal ≠ some true ∧
      ∃ entry ∈ modelRegistry, entry.id = id ∧
        configured modelRegistry env id = some (.anthropic entry) := by
  obtain ⟨capabilities, -, tries⟩ := run.tries
  rcases List.mem_append.mp (tries.asked isAsked) with capability | model
  · obtain ⟨candidate, -, same⟩ := List.mem_map.mp capability
    cases same
  · obtain ⟨entry, inLoop, same⟩ := List.mem_map.mp model
    obtain rfl : entry.id = id := AdapterRef.model.inj same
    obtain ⟨listed, serves⟩ := modelChain_serves (List.mem_filter.mp inLoop).1
    obtain ⟨cloud, bound⟩ := available_modelRegistry listed serves.1.available
    refine ⟨fun required => ?_, entry, listed, rfl, bound env⟩
    have isLocal := serves.1.locality required
    rw [cloud] at isLocal
    cases isLocal

/-- An order that no configured capability serves, and that asks for no reasoning. -/
theorem routeWork_deployed (unserved : order.prefersHuman = some true ∨
      ¬ ServedByCrm env order ∧ order.needsReasoning ≠ some true) :
    (orderRouting order (workerDeps vendors bus env).buffered).executionClass = .human := by
  show (routeWork (workRoutingInput order)
    (workerDeps vendors bus env).workRegistry).executionClass = .human
  rcases unserved with prefers | ⟨unserved, unreasoned⟩
  · simp [routeWork, workRoutingInput, prefers]
  · have none : (workerDeps vendors bus env).workRegistry.healthyProviding
        order.requiredCapabilities = [] := by
      rw [healthyProviding_workRegistry]
      exact if_neg unserved
    by_cases prefers : order.prefersHuman = some true
    · simp [routeWork, workRoutingInput, prefers]
    · simp [routeWork, workRoutingInput, none, unreasoned, prefers]

theorem parked_of_human {outcome : Except Thrown WorkOrderResult} {actions : List Action}
    {deps : OrchestratorDeps} (publishes : deps.bus.Resolves)
    (run : OrderRun platform order deps outcome actions)
    (human : (orderRouting order deps).executionClass = .human) :
    asked actions = [] ∧ ∀ result, outcome = .ok result → Parked result.status := by
  cases run with
  | broken =>
    refine ⟨rfl, fun result returned => ?_⟩
    cases returned
  | denied present evaluated effect closes =>
    refine ⟨closes.quiet.asked_eq, fun result returned => ?_⟩
    rw [publishes.closes_ok closes] at returned
    cases returned
    exact .inl rfl
  | approval present evaluated effect closes =>
    refine ⟨closes.quiet.asked_eq, fun result returned => ?_⟩
    rw [publishes.closes_ok closes] at returned
    cases returned
    exact .inr (.inl rfl)
  | routed allowed run =>
    cases run with
    | unplanned planned =>
      refine ⟨planned.quiet.asked_eq, fun result returned => ?_⟩
      cases returned
    | human planned routed closes =>
      refine ⟨?_, fun result returned => ?_⟩
      · rw [asked_append, planned.quiet.asked_eq, closes.quiet.asked_eq]
        rfl
      · rw [publishes.closes_ok closes] at returned
        cases returned
        exact .inr (.inr rfl)
    | capability planned machine routed run => exact absurd human machine
    | model planned routed run =>
      rw [human] at routed
      cases routed

end Deployment

/-- Whatever order the deployed worker runs: a capability that it asks is the CRM, which is
configured and provides all that the order requires; a model that it asks is one of Anthropic's,
through an adapter of its own entry, and the order need not stay local; and an order that the CRM
does not serve and that needs no reasoning asks nothing and, if its run returns, waits for a person
or is denied. -/
theorem deployed_worker_asks (vendors : Vendors) (bus : EventBus) (env : ProcessEnv)
    (platform : Platform) (order : WorkOrder) (history : History) :
    wp (executeWorkOrder platform order (workerDeps vendors bus env).buffered) history
      fun outcome actions =>
        (∀ id, .capability id ∈ asked actions → id = "ghl.crm" ∧ ServedByCrm env order) ∧
        (∀ id, .model id ∈ asked actions → order.requireLocal ≠ some true ∧
          ∃ entry ∈ modelRegistry, entry.id = id ∧
            configured modelRegistry env id = some (.anthropic entry)) ∧
        (order.prefersHuman = some true ∨
            ¬ ServedByCrm env order ∧ order.needsReasoning ≠ some true →
          asked actions = [] ∧ ∀ result, outcome = .ok result → Parked result.status) := by
  refine wp_mono executeWorkOrder_run fun outcome actions run => ⟨?_, ?_, ?_⟩
  · exact fun id isAsked => capability_asked run isAsked
  · exact fun id isAsked => model_asked run isAsked
  · exact fun unserved =>
      parked_of_human BufferingEventBus.resolves run (routeWork_deployed unserved)

end Donna
