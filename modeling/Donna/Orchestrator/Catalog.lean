import Donna.Js.OrderedMap
import Donna.Orchestrator.Tried

/-! The capability catalog: concrete adapters in one map, from which both the Work Router's registry
and the resolver of the orchestrator are derived.  After any registrations the two agree with the
last one of each id, so the branch of a run for an adapter that is not wired is never taken. -/

namespace Donna

open Js Async Async.Program

/-- An adapter with its id and the capabilities of its own spec. -/
structure CatalogAdapter where
  id : String
  capabilities : List String
  adapter : CapabilityAdapter

structure CatalogEntry where
  adapter : CatalogAdapter
  executionClass : ExecutionClass
  provides : List String
  health : HealthStatus

structure RegisterOptions where
  provides : Option (List String) := none
  health : Option HealthStatus := none

structure CapabilityCatalog where
  entries : OrderedMap String CatalogEntry

namespace CapabilityCatalog

def empty : CapabilityCatalog := ⟨.empty⟩

def register (catalog : CapabilityCatalog) (adapter : CatalogAdapter)
    (executionClass : ExecutionClass) (options : RegisterOptions) : CapabilityCatalog :=
  { entries := catalog.entries.set adapter.id {
      adapter := adapter
      executionClass := executionClass
      provides := options.provides.getD adapter.capabilities
      health := options.health.getD .healthy } }

def resolve (catalog : CapabilityCatalog) (id : String) : Option CapabilityAdapter :=
  (catalog.entries.get id).map fun entry => entry.adapter.adapter

def resolver (catalog : CapabilityCatalog) : String → Option CapabilityAdapter :=
  fun id => catalog.resolve id

def toWorkRegistry (catalog : CapabilityCatalog) : CapabilityRegistry :=
  catalog.entries.entries.foldl (fun registry entry =>
    registry.register {
      id := entry.1
      executionClass := entry.2.executionClass
      provides := entry.2.provides
      health := entry.2.health }) { items := [] }

end CapabilityCatalog

/-- The arguments of one call of `register`. -/
structure Registration where
  adapter : CatalogAdapter
  executionClass : ExecutionClass
  options : RegisterOptions

/-- What the Work Router is to know of a registration. -/
def Registration.capability (registration : Registration) : RegisteredCapability where
  id := registration.adapter.id
  executionClass := registration.executionClass
  provides := registration.options.provides.getD registration.adapter.capabilities
  health := registration.options.health.getD .healthy

/-- The catalog after some registrations. -/
def catalogOf (registrations : List Registration) : CapabilityCatalog :=
  registrations.foldl (fun catalog registration =>
    catalog.register registration.adapter registration.executionClass registration.options) .empty

def lastRegistration (registrations : List Registration) (id : String) : Option Registration :=
  registrations.reverse.find? fun registration => registration.adapter.id = id

/-! ### The catalog after a sequence of registrations -/

def Registration.entry (registration : Registration) : CatalogEntry where
  adapter := registration.adapter
  executionClass := registration.executionClass
  provides := registration.capability.provides
  health := registration.capability.health

theorem get_catalogOf (registrations : List Registration) (id : String) :
    (catalogOf registrations).entries.get id =
      (lastRegistration registrations id).map Registration.entry := by
  induction registrations using List.reverseRecOn with
  | nil => rfl
  | append_singleton registrations registration ih =>
    have step : (catalogOf (registrations ++ [registration])).entries =
        (catalogOf registrations).entries.set registration.adapter.id registration.entry := by
      simp [catalogOf, CapabilityCatalog.register, Registration.entry, Registration.capability]
    rw [step, OrderedMap.get_set, ih]
    by_cases same : registration.adapter.id = id
    · simp [lastRegistration, same]
    · simp [lastRegistration, same, Ne.symm same]

/-- The resolver gives the adapter of an id's last registration. -/
theorem resolver_catalogOf (registrations : List Registration) (id : String) :
    (catalogOf registrations).resolver id =
      (lastRegistration registrations id).map fun registration => registration.adapter.adapter := by
  rw [CapabilityCatalog.resolver, CapabilityCatalog.resolve, get_catalogOf, Option.map_map]
  rfl

/-- What the Work Router is told of an entry. -/
def capabilityOf (entry : String × CatalogEntry) : RegisteredCapability where
  id := entry.1
  executionClass := entry.2.executionClass
  provides := entry.2.provides
  health := entry.2.health

theorem CapabilityCatalog.items_toWorkRegistry (catalog : CapabilityCatalog) :
    catalog.toWorkRegistry.items = catalog.entries.entries.map capabilityOf := by
  have extend : ∀ (entries : List (String × CatalogEntry)) (registry : CapabilityRegistry),
      (entries.foldl (fun registry entry => registry.register (capabilityOf entry))
        registry).items = registry.items ++ entries.map capabilityOf := by
    intro entries
    induction entries with
    | nil => simp
    | cons entry entries ih =>
      intro registry
      rw [List.foldl_cons, ih]
      simp [CapabilityRegistry.register]
  exact extend catalog.entries.entries { items := [] }

theorem lastRegistration_id {registrations : List Registration} {id : String}
    {registration : Registration} (last : lastRegistration registrations id = some registration) :
    registration.adapter.id = id := by
  simpa using List.find?_some last

/-- The registry holds each registered id once, as it was last registered. -/
theorem items_catalogOf (registrations : List Registration) (id : String) :
    (catalogOf registrations).toWorkRegistry.items.filter (fun item => item.id = id) =
      ((lastRegistration registrations id).map Registration.capability).toList := by
  rw [CapabilityCatalog.items_toWorkRegistry, List.filter_map]
  have entries := (catalogOf registrations).entries.filter_entries id
  rw [get_catalogOf] at entries
  change (List.filter (fun entry => decide (entry.1 = id)) _).map capabilityOf = _
  rw [entries]
  cases last : lastRegistration registrations id with
  | none => rfl
  | some registration => simp [capabilityOf, Registration.entry, Registration.capability,
      lastRegistration_id last]

/-! ### Runs on a catalog -/

section Runs

variable {platform : Platform} {order : WorkOrder} {deps : OrchestratorDeps}
  {outcome : Except Thrown WorkOrderResult} {actions : List Action} {result : WorkOrderResult}

theorem Settles.result_ne_blocked {adapter : AdapterRef} {overBudget failed : WorkOrderResult}
    {completed : Reply → WorkOrderResult → Prop}
    (settles : Settles platform order deps adapter overBudget failed completed outcome actions)
    (hOver : overBudget.status = .budgetExceeded) (hFailed : failed.status = .failed)
    (hCompleted : ∀ reply result, completed reply result → result.status = .completed)
    (returned : outcome = .ok result) : result.status ≠ .blocked := by
  cases settles with
  | broken => cases returned
  | overBudget attempt closes => simp [closes.result_eq returned, hOver]
  | completed attempt carries =>
    cases returned
    simp [hCompleted _ _ carries]
  | failed attempt final closes => simp [closes.result_eq returned, hFailed]

theorem ModelRun.result_ne_blocked {executionClass : ExecutionClass}
    (run : ModelRun platform order deps executionClass outcome actions)
    (returned : outcome = .ok result) : result.status ≠ .blocked := by
  cases run with
  | missingRequest _ closes | noEligible _ closes | exhausted _ _ closes =>
    simp [closes.result_eq returned, modelFailed]
  | settled requested split before settles =>
    refine settles.result_ne_blocked rfl rfl ?_ returned
    rintro reply result ⟨given, -, rfl⟩
    rfl

/-- A run blocks only on the capability path, where no candidate is wired. -/
theorem OrderRun.unwired_of_blocked (run : OrderRun platform order deps outcome actions)
    (returned : outcome = .ok result) (blocked : result.status = .blocked) :
    (orderRouting order deps).executionClass ≠ .human ∧
      isAiExecutionClass (orderRouting order deps).executionClass = false ∧
      wiredCapabilities order deps = [] := by
  cases run with
  | broken => cases returned
  | denied _ _ _ closes => simp [closes.result_eq returned, policyDenied] at blocked
  | approval _ _ _ closes => simp [closes.result_eq returned, policyApproval] at blocked
  | routed allowed run =>
    cases run with
    | unplanned => cases returned
    | human planned routed closes => simp [closes.result_eq returned, awaitingHuman] at blocked
    | model planned routed run => exact absurd blocked (run.result_ne_blocked returned)
    | capability planned machine routed run =>
      cases run with
      | unwired absent closes => exact ⟨machine, routed, absent⟩
      | exhausted wired before unreasoned closes =>
        simp [closes.result_eq returned, capabilityExhausted] at blocked
      | escalated wired before reasoned model =>
        exact absurd blocked (model.result_ne_blocked returned)
      | settled split before settles =>
        refine absurd blocked (settles.result_ne_blocked rfl rfl ?_ returned)
        rintro reply result ⟨output, -, rfl⟩
        rfl

/-- Without a candidate the Work Router decides for a human or for AI. -/
theorem routeWork_of_no_candidates {input : WorkRoutingInput} {registry : CapabilityRegistry}
    (none : candidateCapabilities input registry = []) :
    (routeWork input registry).executionClass = .human ∨
      isAiExecutionClass (routeWork input registry).executionClass = true := by
  rw [candidateCapabilities] at none
  rw [routeWork]
  split at none
  next human => simp [human]
  next machine =>
    rw [if_neg machine, none]
    dsimp only
    split
    · exact .inr rfl
    · exact .inl rfl

theorem mem_items_of_candidate {input : WorkRoutingInput} {registry : CapabilityRegistry}
    {candidate : RegisteredCapability}
    (present : candidate ∈ candidateCapabilities input registry) :
    candidate ∈ registry.items := by
  rw [candidateCapabilities] at present
  split at present
  next => cases present
  next => exact List.mem_of_mem_filter ((List.mem_insertionSort byPreference).mp present)

/-- What the registry of a catalog lists, its resolver finds. -/
theorem lastRegistration_of_item {registrations : List Registration} {item : RegisteredCapability}
    (present : item ∈ (catalogOf registrations).toWorkRegistry.items) :
    ∃ registration, lastRegistration registrations item.id = some registration ∧
      item = registration.capability := by
  have listed : item ∈ (catalogOf registrations).toWorkRegistry.items.filter
      (fun other => other.id = item.id) := List.mem_filter.mpr ⟨present, by simp⟩
  rw [items_catalogOf] at listed
  cases last : lastRegistration registrations item.id with
  | none => simp [last] at listed
  | some registration => exact ⟨registration, rfl, by simpa [last] using listed⟩

end Runs

/-- The dependencies with their capabilities from one catalog. -/
def OrchestratorDeps.withCatalog (deps : OrchestratorDeps) (catalog : CapabilityCatalog) :
    OrchestratorDeps :=
  { deps with
    workRegistry := catalog.toWorkRegistry
    resolveCapabilityAdapter := some catalog.resolver }

/-- Every candidate of a run on a catalog is wired. -/
theorem wiredCapabilities_withCatalog (order : WorkOrder) (deps : OrchestratorDeps)
    (registrations : List Registration) :
    wiredCapabilities order (deps.withCatalog (catalogOf registrations)) =
      candidateCapabilities (workRoutingInput order) (catalogOf registrations).toWorkRegistry := by
  refine List.filter_eq_self.mpr fun candidate present => ?_
  obtain ⟨registration, last, -⟩ := lastRegistration_of_item (mem_items_of_candidate present)
  have resolved := resolver_catalogOf registrations candidate.id
  simp [OrchestratorDeps.capabilityAdapter, OrchestratorDeps.withCatalog, resolved, last]

/-- Routing and execution from one catalog do not drift: its registry holds each registered id once,
as it was last registered, every id that a run may try resolves to that registration's adapter, and
no run is blocked for want of an adapter. -/
theorem catalog_never_drifts (registrations : List Registration) (platform : Platform)
    (order : WorkOrder) (deps : OrchestratorDeps) (history : History) :
    (∀ id, (catalogOf registrations).toWorkRegistry.items.filter (fun item => item.id = id) =
      ((lastRegistration registrations id).map Registration.capability).toList) ∧
    (∀ candidate ∈ candidateCapabilities (workRoutingInput order)
        (catalogOf registrations).toWorkRegistry,
      ∃ registration, lastRegistration registrations candidate.id = some registration ∧
        (catalogOf registrations).resolver candidate.id = some registration.adapter.adapter) ∧
    wp (executeWorkOrder platform order (deps.withCatalog (catalogOf registrations))) history
      fun outcome actions =>
        (∀ id, .capability id ∈ asked actions →
          ∃ registration, lastRegistration registrations id = some registration ∧
            (catalogOf registrations).resolver id = some registration.adapter.adapter) ∧
        ∀ result, outcome = .ok result →
          ¬ (result.status = .blocked ∧ result.reason = some .noCapabilityAdapter) := by
  have resolves : ∀ candidate ∈ candidateCapabilities (workRoutingInput order)
      (catalogOf registrations).toWorkRegistry,
      ∃ registration, lastRegistration registrations candidate.id = some registration ∧
        (catalogOf registrations).resolver candidate.id = some registration.adapter.adapter := by
    intro candidate present
    obtain ⟨registration, last, -⟩ := lastRegistration_of_item (mem_items_of_candidate present)
    exact ⟨registration, last, by simp [resolver_catalogOf, last]⟩
  refine ⟨items_catalogOf registrations, resolves,
    wp_mono executeWorkOrder_run fun outcome actions run => ⟨fun id present => ?_, ?_⟩⟩
  · obtain ⟨capabilities, chosen, tries⟩ := run.tries
    have tried := tries.asked present
    rw [wiredCapabilities_withCatalog] at chosen
    rcases List.mem_append.mp tried with capability | model
    · obtain ⟨candidate, inLoop, same⟩ := List.mem_map.mp capability
      rcases chosen with rfl | rfl
      · cases inLoop
      · exact AdapterRef.capability.inj same ▸ resolves candidate inLoop
    · obtain ⟨entry, -, same⟩ := List.mem_map.mp model
      cases same
  · rintro result returned ⟨blocked, -⟩
    obtain ⟨machine, routed, absent⟩ := run.unwired_of_blocked returned blocked
    rw [wiredCapabilities_withCatalog] at absent
    rcases routeWork_of_no_candidates absent with human | ai
    · exact machine human
    · exact Bool.eq_false_iff.mp routed ai

end Donna
