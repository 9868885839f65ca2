import Donna.Orchestrator.Execute

/-! What a run of the orchestrator can do.  `OrderRun` relates the outcome of a run to its actions,
one constructor for each way to the end, built from the pieces that an attempt at an adapter
consists of; `executeWorkOrder_run` shows that every run is one of these, whatever the bus and the
adapters reply.  Every property of runs follows from this relation. -/

namespace Donna

open Js Async Async.Program

section Runs

variable (platform : Platform) (order : WorkOrder) (deps : OrchestratorDeps)

/-! ### Pieces of a run -/

/-- The publishing of one event of the order, with the bus's reply. -/
inductive Emits (type : EventType) : Except Thrown Unit → List Action → Prop
  | intro (history : History) (fresh : Fresh) :
      Emits type (deps.bus.publish history (order.event fresh type))
        [.published (order.event fresh type) (deps.bus.publish history (order.event fresh type))]

/-- An outcome event, after which the run returns `result` unless the bus rejected the event. -/
inductive Closes (type : EventType) (result : WorkOrderResult) :
    Except Thrown WorkOrderResult → List Action → Prop
  | returned {actions : List Action} (outcome : Emits order deps type (.ok ()) actions) :
      Closes type result (.ok result) actions
  | threw {error : Thrown} {actions : List Action}
      (outcome : Emits order deps type (.error error) actions) :
      Closes type result (.error error) actions

/-- A reply that the adapter wired under a reference can give to `estimate`. -/
inductive Estimates : AdapterRef → Except Thrown CostEstimate → Prop
  | capability {id : String} {adapter : CapabilityAdapter}
      (wired : deps.capabilityAdapter id = some adapter) (history : History)
      (input : Option JsValue) (context : ExecutionContext) :
      Estimates (.capability id) (adapter.estimate history input context)
  | model {id : String} {adapter : ModelAdapter}
      (wired : deps.resolveModelAdapter id = some adapter) (history : History)
      (request : ModelRequest) (context : ExecutionContext) :
      Estimates (.model id) (adapter.estimate history request context)

/-- The budget gate let an attempt through. -/
inductive Cleared (adapter : AdapterRef) : List Action → Prop
  | unbudgeted (absent : order.budget = none) : Cleared adapter []
  | within {gate : JsValue} {est : CostEstimate} {check : BudgetCheck}
      (present : order.budget = some gate) (estimates : Estimates deps adapter (.ok est))
      (checked : checkOrderBudget platform.realm gate est = .ok check)
      (allowed : check.allowed = true) : Cleared adapter [.estimated adapter (.ok est)]

inductive OverBudget (adapter : AdapterRef) : List Action → Prop
  | intro {gate : JsValue} {est : CostEstimate} {check : BudgetCheck}
      (present : order.budget = some gate) (estimates : Estimates deps adapter (.ok est))
      (checked : checkOrderBudget platform.realm gate est = .ok check)
      (refused : check.allowed = false) : OverBudget adapter [.estimated adapter (.ok est)]

inductive Started (adapter : AdapterRef) : List Action → Prop
  | intro {gate started called : List Action} (cleared : Cleared platform order deps adapter gate)
      (worker : Emits order deps .workerStarted (.ok ()) started)
      (tool : Emits order deps .toolCalled (.ok ()) called) :
      Started adapter (gate ++ started ++ called)

/-- An attempt that throws out of the run, before it calls `execute`. -/
inductive Broken (adapter : AdapterRef) (error : Thrown) : List Action → Prop
  | estimate {gate : JsValue} (present : order.budget = some gate)
      (estimates : Estimates deps adapter (.error error)) :
      Broken adapter error [.estimated adapter (.error error)]
  | budget {gate : JsValue} {est : CostEstimate} {reason : TypeError}
      (present : order.budget = some gate) (estimates : Estimates deps adapter (.ok est))
      (checked : checkOrderBudget platform.realm gate est = .error reason)
      (same : error = .typeError reason) : Broken adapter error [.estimated adapter (.ok est)]
  | worker {gate started : List Action} (cleared : Cleared platform order deps adapter gate)
      (worker : Emits order deps .workerStarted (.error error) started) :
      Broken adapter error (gate ++ started)
  | tool {gate started called : List Action} (cleared : Cleared platform order deps adapter gate)
      (worker : Emits order deps .workerStarted (.ok ()) started)
      (tool : Emits order deps .toolCalled (.error error) called) :
      Broken adapter error (gate ++ started ++ called)

/-- The actions of a `try` block that gives `outcome`: it calls `execute`, records the usage and
announces success with a result that carries the reply. -/
inductive Block {ρ : Type} (adapter : AdapterRef) (carries : Reply → ρ → Prop) :
    Except Thrown ρ → List Action → Prop
  | announced {reply : Reply} {result : ρ} {outcome : List Action} (entry : UsageRecord)
      (carried : carries reply result)
      (completed : Emits order deps .taskCompleted (.ok ()) outcome) :
      Block adapter carries (.ok result)
        ([.executed adapter (.ok reply), .recorded entry] ++ outcome)
  | rejected (error : Thrown) :
      Block adapter carries (.error error) [.executed adapter (.error error)]
  | unannounced {error : Thrown} {outcome : List Action} (reply : Reply) (entry : UsageRecord)
      (completed : Emits order deps .taskCompleted (.error error) outcome) :
      Block adapter carries (.error error)
        ([.executed adapter (.ok reply), .recorded entry] ++ outcome)

/-- An attempt whose `try` block throws: `execute` rejected, or it resolved and the bus rejected the
completion event. -/
inductive Failed (adapter : AdapterRef) (error : Thrown) : List Action → Prop
  | rejected {start : List Action} (started : Started platform order deps adapter start) :
      Failed adapter error (start ++ [.executed adapter (.error error)])
  | unannounced {start outcome : List Action} (reply : Reply) (entry : UsageRecord)
      (started : Started platform order deps adapter start)
      (completed : Emits order deps .taskCompleted (.error error) outcome) :
      Failed adapter error (start ++ [.executed adapter (.ok reply), .recorded entry] ++ outcome)

/-- An attempt that completes the order. -/
inductive Succeeded (adapter : AdapterRef) (reply : Reply) : List Action → Prop
  | intro {start outcome : List Action} (entry : UsageRecord)
      (started : Started platform order deps adapter start)
      (completed : Emits order deps .taskCompleted (.ok ()) outcome) :
      Succeeded adapter reply
        (start ++ [.executed adapter (.ok reply), .recorded entry] ++ outcome)

/-- Attempts one after the other that all failed retryably. -/
inductive FellThrough : List AdapterRef → List Action → Prop
  | none : FellThrough [] []
  | more {tried : List AdapterRef} {actions last : List Action} {adapter : AdapterRef}
      {error : Thrown} (before : FellThrough tried actions)
      (failed : Failed platform order deps adapter error last)
      (retryable : isRetryable (deps.classifyError adapter error) = true) :
      FellThrough (tried ++ [adapter]) (actions ++ last)

/-- The attempt that ends a loop: it throws out of the run, or the run returns one of three
results. -/
inductive Settles (adapter : AdapterRef) (overBudget failed : WorkOrderResult)
    (completed : Reply → WorkOrderResult → Prop) :
    Except Thrown WorkOrderResult → List Action → Prop
  | broken {error : Thrown} {actions : List Action}
      (attempt : Broken platform order deps adapter error actions) :
      Settles adapter overBudget failed completed (.error error) actions
  | overBudget {outcome : Except Thrown WorkOrderResult} {actions last : List Action}
      (attempt : OverBudget platform order deps adapter actions)
      (closes : Closes order deps .taskBlocked overBudget outcome last) :
      Settles adapter overBudget failed completed outcome (actions ++ last)
  | completed {reply : Reply} {result : WorkOrderResult} {actions : List Action}
      (attempt : Succeeded platform order deps adapter reply actions)
      (carries : completed reply result) :
      Settles adapter overBudget failed completed (.ok result) actions
  | failed {error : Thrown} {outcome : Except Thrown WorkOrderResult} {actions last : List Action}
      (attempt : Failed platform order deps adapter error actions)
      (final : isRetryable (deps.classifyError adapter error) = false)
      (closes : Closes order deps .taskFailed failed outcome last) :
      Settles adapter overBudget failed completed outcome (actions ++ last)

/-! ### Whole runs -/

def wiredCapabilities : List RegisteredCapability :=
  (candidateCapabilities (workRoutingInput order) deps.workRegistry).filter fun candidate =>
    (deps.capabilityAdapter candidate.id).isSome

def modelChain : List ModelEntry :=
  match routeModel platform.realm (modelRoutingInput order) deps.modelRegistry with
  | none => []
  | some decision => decision.model :: decision.fallbacks

def wiredModels : List ModelEntry :=
  (modelChain platform order deps).filter fun entry => (deps.resolveModelAdapter entry.id).isSome

def RegisteredCapability.ref (candidate : RegisteredCapability) : AdapterRef :=
  .capability candidate.id

def ModelEntry.ref (entry : ModelEntry) : AdapterRef := .model entry.id

/-- The result that a capability's reply completes the order with. -/
def CapabilityCarries (candidate : RegisteredCapability) (reply : Reply)
    (result : WorkOrderResult) : Prop :=
  ∃ output, reply = .output output ∧ result = capabilityCompleted candidate output

def ModelCarries (executionClass : ExecutionClass) (entry : ModelEntry) (reply : Reply)
    (result : WorkOrderResult) : Prop :=
  ∃ given, reply = .model given ∧ result = modelCompleted executionClass entry given

inductive ModelRun (executionClass : ExecutionClass) :
    Except Thrown WorkOrderResult → List Action → Prop
  | missingRequest {outcome : Except Thrown WorkOrderResult} {last : List Action}
      (absent : order.modelRequest = none)
      (closes : Closes order deps .taskFailed (modelFailed executionClass .missingModelRequest)
        outcome last) :
      ModelRun executionClass outcome last
  | noEligible {outcome : Except Thrown WorkOrderResult} {last : List Action}
      (unmatched : routeModel platform.realm (modelRoutingInput order) deps.modelRegistry = none)
      (closes : Closes order deps .taskFailed (modelFailed executionClass .noEligibleModel)
        outcome last) :
      ModelRun executionClass outcome last
  | settled {tried rest : List ModelEntry} {entry : ModelEntry}
      {outcome : Except Thrown WorkOrderResult} {actions last : List Action}
      (requested : order.modelRequest ≠ none)
      (split : wiredModels platform order deps = tried ++ entry :: rest)
      (before : FellThrough platform order deps (tried.map ModelEntry.ref) actions)
      (settles : Settles platform order deps entry.ref (modelOverBudget executionClass entry)
        (modelFailed executionClass .adapterError) (ModelCarries executionClass entry)
        outcome last) :
      ModelRun executionClass outcome (actions ++ last)
  | exhausted {reason : ResultReason} {outcome : Except Thrown WorkOrderResult}
      {actions last : List Action}
      (before : FellThrough platform order deps
        ((wiredModels platform order deps).map ModelEntry.ref) actions)
      (unwired : reason =
        if wiredModels platform order deps = [] then .noAdapter else .adapterError)
      (closes : Closes order deps .taskFailed (modelFailed executionClass reason) outcome last) :
      ModelRun executionClass outcome (actions ++ last)

inductive CapabilityRun (routing : WorkRoutingDecision) :
    Except Thrown WorkOrderResult → List Action → Prop
  | settled {tried rest : List RegisteredCapability} {candidate : RegisteredCapability}
      {outcome : Except Thrown WorkOrderResult} {actions last : List Action}
      (split : wiredCapabilities order deps = tried ++ candidate :: rest)
      (before : FellThrough platform order deps (tried.map RegisteredCapability.ref) actions)
      (settles : Settles platform order deps candidate.ref (capabilityOverBudget candidate)
        (capabilityFailed candidate) (CapabilityCarries candidate) outcome last) :
      CapabilityRun routing outcome (actions ++ last)
  | unwired {outcome : Except Thrown WorkOrderResult} {last : List Action}
      (absent : wiredCapabilities order deps = [])
      (closes : Closes order deps .taskBlocked (capabilityUnwired routing) outcome last) :
      CapabilityRun routing outcome last
  | exhausted {outcome : Except Thrown WorkOrderResult} {actions last : List Action}
      (wired : wiredCapabilities order deps ≠ [])
      (before : FellThrough platform order deps
        ((wiredCapabilities order deps).map RegisteredCapability.ref) actions)
      (unreasoned : order.needsReasoning ≠ some true)
      (closes : Closes order deps .taskFailed (capabilityExhausted routing) outcome last) :
      CapabilityRun routing outcome (actions ++ last)
  | escalated {outcome : Except Thrown WorkOrderResult} {actions last : List Action}
      (wired : wiredCapabilities order deps ≠ [])
      (before : FellThrough platform order deps
        ((wiredCapabilities order deps).map RegisteredCapability.ref) actions)
      (reasoned : order.needsReasoning = some true)
      (model : ModelRun platform order deps .cloudAi outcome last) :
      CapabilityRun routing outcome (actions ++ last)

def orderRouting : WorkRoutingDecision := routeWork (workRoutingInput order) deps.workRegistry

inductive RouteRun : Except Thrown WorkOrderResult → List Action → Prop
  | unplanned {error : Thrown} {actions : List Action}
      (planned : Emits order deps .taskPlanned (.error error) actions) :
      RouteRun (.error error) actions
  | human {outcome : Except Thrown WorkOrderResult} {actions last : List Action}
      (planned : Emits order deps .taskPlanned (.ok ()) actions)
      (routed : (orderRouting order deps).executionClass = .human)
      (closes : Closes order deps .taskBlocked (awaitingHuman (orderRouting order deps))
        outcome last) :
      RouteRun outcome (actions ++ last)
  | capability {outcome : Except Thrown WorkOrderResult} {actions last : List Action}
      (planned : Emits order deps .taskPlanned (.ok ()) actions)
      (machine : (orderRouting order deps).executionClass ≠ .human)
      (routed : isAiExecutionClass (orderRouting order deps).executionClass = false)
      (run : CapabilityRun platform order deps (orderRouting order deps) outcome last) :
      RouteRun outcome (actions ++ last)
  | model {outcome : Except Thrown WorkOrderResult} {actions last : List Action}
      (planned : Emits order deps .taskPlanned (.ok ()) actions)
      (routed : isAiExecutionClass (orderRouting order deps).executionClass = true)
      (run : ModelRun platform order deps (orderRouting order deps).executionClass outcome last) :
      RouteRun outcome (actions ++ last)

def PolicyAllows : Prop :=
  ∀ policy, order.policy = some policy →
    ∃ decision, evaluate platform.realm policy = .ok decision ∧ decision.effect = .allow

inductive OrderRun : Except Thrown WorkOrderResult → List Action → Prop
  | broken {policy : JsValue} {reason : TypeError} (present : order.policy = some policy)
      (evaluated : evaluate platform.realm policy = .error reason) :
      OrderRun (.error (.typeError reason)) []
  | denied {policy : JsValue} {decision : PolicyDecision}
      {outcome : Except Thrown WorkOrderResult} {last : List Action}
      (present : order.policy = some policy)
      (evaluated : evaluate platform.realm policy = .ok decision) (effect : decision.effect = .deny)
      (closes : Closes order deps .taskBlocked (policyDenied decision) outcome last) :
      OrderRun outcome last
  | approval {policy : JsValue} {decision : PolicyDecision}
      {outcome : Except Thrown WorkOrderResult} {last : List Action}
      (present : order.policy = some policy)
      (evaluated : evaluate platform.realm policy = .ok decision)
      (effect : decision.effect = .requiresApproval)
      (closes : Closes order deps .approvalRequested (policyApproval decision) outcome last) :
      OrderRun outcome last
  | routed {outcome : Except Thrown WorkOrderResult} {actions : List Action}
      (allowed : PolicyAllows platform order) (run : RouteRun platform order deps outcome actions) :
      OrderRun outcome actions

end Runs

/-! ### Every run is one of these -/

section Specs

variable {platform : Platform} {order : WorkOrder} {deps : OrchestratorDeps} {history : History}

theorem wp_liftTypeError {β : Type} {value : Except TypeError β}
    {post : Except Thrown β → List Action → Prop} :
    wp (liftTypeError value) history post ↔ post (value.mapError .typeError) [] := Iff.rfl

theorem emit_spec (type : EventType) :
    wp (emit platform order deps type) history (Emits order deps type) := by
  simp only [emit, wp_bind, wp_observe, List.append_nil, List.nil_append]
  exact .intro history (platform.fresh history)

theorem finish_spec (type : EventType) (result : WorkOrderResult) :
    wp (finish platform order deps type result) history (Closes order deps type result) := by
  rw [finish, wp_bind]
  refine wp_mono (emit_spec type) ?_
  rintro (error | ⟨⟩) actions emits
  · exact .threw emits
  · simpa using Closes.returned emits

theorem withinBudget_spec {adapter : AdapterRef} {reply : History → Except Thrown CostEstimate}
    (possible : ∀ history, Estimates deps adapter (reply history)) :
    wp (withinBudget platform order (call reply (.estimated adapter))) history
      fun result actions => match result with
        | .ok true => Cleared platform order deps adapter actions
        | .ok false => OverBudget platform order deps adapter actions
        | .error error => Broken platform order deps adapter error actions := by
  unfold withinBudget
  cases present : order.budget with
  | none => exact .unbudgeted present
  | some gate =>
    simp only [wp_bind, wp_call]
    have estimates := possible history
    cases estimated : reply history with
    | error error => exact .estimate present (estimated ▸ estimates)
    | ok est =>
      rw [estimated] at estimates
      simp only [wp_liftTypeError]
      cases checked : checkOrderBudget platform.realm gate est with
      | error reason => exact .budget present estimates checked rfl
      | ok check =>
        simp only [Except.mapError, wp_pure, List.append_nil]
        cases allowed : check.allowed with
        | true => exact .within present estimates checked allowed
        | false => exact .intro present estimates checked allowed

/-- What an attempt can do, for a `try` block that calls `execute` and then announces success. -/
theorem attemptAdapter_spec {ρ : Type} (adapter : AdapterRef)
    {reply : History → Except Thrown CostEstimate} {block : Run ρ} {carries : Reply → ρ → Prop}
    (possible : ∀ history, Estimates deps adapter (reply history))
    (hBlock : ∀ history, wp block history (Block order deps adapter carries)) :
    wp (attemptAdapter platform order deps (call reply (.estimated adapter)) block) history
      fun result actions => match result with
        | .ok .overBudget => OverBudget platform order deps adapter actions
        | .ok (.resolved result) =>
          ∃ given, Succeeded platform order deps adapter given actions ∧ carries given result
        | .ok (.rejected error) => Failed platform order deps adapter error actions
        | .error error => Broken platform order deps adapter error actions := by
  rw [attemptAdapter, wp_bind]
  refine wp_mono (withinBudget_spec possible) ?_
  rintro (error | _ | _) gate h
  · exact h
  · simpa using h
  simp only [Bool.not_true, Bool.false_eq_true, if_false, wp_bind]
  refine wp_mono (emit_spec .workerStarted) ?_
  rintro (error | ⟨⟩) started worker
  · exact .worker h worker
  refine wp_mono (emit_spec .toolCalled) ?_
  rintro (error | ⟨⟩) called tool
  · simpa using Broken.tool h worker tool
  simp only [wp_attempt]
  refine wp_mono (hBlock _) ?_
  have start : Started platform order deps adapter (gate ++ started ++ called) :=
    .intro h worker tool
  intro outcome actions ran
  cases ran with
  | announced entry carried completed =>
    simp only [wp_pure, List.append_nil]
    refine ⟨_, ?_, carried⟩
    simpa using Succeeded.intro entry start completed
  | rejected error =>
    have failed : Failed platform order deps adapter error _ := .rejected start
    simpa using failed
  | unannounced reply entry completed => simpa using Failed.unannounced reply entry start completed

/-! ### The loops -/

theorem FellThrough.actions_nil {actions : List Action}
    (before : FellThrough platform order deps [] actions) : actions = [] := by
  generalize none_tried : ([] : List AdapterRef) = tried at before
  cases before with
  | none => rfl
  | more => simp at none_tried

theorem capabilityBlock_spec (candidate : RegisteredCapability) (adapter : CapabilityAdapter)
    (history : History) :
    wp (capabilityBlock platform order deps candidate adapter) history
      (Block order deps candidate.ref (CapabilityCarries candidate)) := by
  rw [capabilityBlock, wp_bind, wp_call]
  cases executed : adapter.execute history order.capabilityInput (capabilityContext order) with
  | error error => exact .rejected error
  | ok output =>
    simp only [wp_bind, wp_observe, wp_perform]
    refine wp_mono (finish_spec .taskCompleted _) ?_
    intro result outcome closes
    cases closes with
    | returned emits => exact .announced _ ⟨output, rfl, rfl⟩ emits
    | threw emits => exact .unannounced (.output output) _ emits

theorem modelBlock_spec (executionClass : ExecutionClass) (request : ModelRequest)
    (entry : ModelEntry) (adapter : ModelAdapter) (history : History) :
    wp (modelBlock platform order deps executionClass request entry adapter) history
      (Block order deps entry.ref (ModelCarries executionClass entry)) := by
  rw [modelBlock, wp_bind, wp_call]
  cases executed : adapter.execute history request {} with
  | error error => exact .rejected error
  | ok given =>
    simp only [wp_bind, wp_perform]
    refine wp_mono (finish_spec .taskCompleted _) ?_
    intro result outcome closes
    cases closes with
    | returned emits => exact .announced _ ⟨given, rfl, rfl⟩ emits
    | threw emits => exact .unannounced (.model given) _ emits

/-- How a pass over a wired adapter ends: its attempt failed and the loop goes on or breaks as the
error is retryable or not, or the attempt settles the run. -/
def Passed {σ : Type} (platform : Platform) (order : WorkOrder) (deps : OrchestratorDeps)
    (adapter : AdapterRef) (onward halted : σ → Prop)
    (overBudget failed : WorkOrderResult) (completed : Reply → WorkOrderResult → Prop) :
    Except Thrown (Flow σ WorkOrderResult) → List Action → Prop
  | .ok (.next state), actions => onward state ∧ ∃ error,
      Failed platform order deps adapter error actions ∧
        isRetryable (deps.classifyError adapter error) = true
  | .ok (.stop state), actions => halted state ∧ ∃ error,
      Failed platform order deps adapter error actions ∧
        isRetryable (deps.classifyError adapter error) = false
  | .ok (.done result), actions =>
      Settles platform order deps adapter overBudget failed completed (.ok result) actions
  | .error error, actions =>
      Settles platform order deps adapter overBudget failed completed (.error error) actions

theorem capabilityPass_wired {candidate : RegisteredCapability} {adapter : CapabilityAdapter}
    (wired : deps.capabilityAdapter candidate.id = some adapter) (attempted : Bool)
    (history : History) :
    wp (capabilityPass platform order deps candidate attempted) history
      (Passed platform order deps candidate.ref (· = true) (fun _ => False)
        (capabilityOverBudget candidate) (capabilityFailed candidate)
        (CapabilityCarries candidate)) := by
  have classified : ∀ error,
      deps.classifyError candidate.ref error = adapter.classifyError error := by
    intro error
    simp [OrchestratorDeps.classifyError, RegisteredCapability.ref, wired]
  simp only [capabilityPass, wired, wp_bind]
  refine wp_mono (attemptAdapter_spec candidate.ref
    (fun history => .capability wired history _ _) (capabilityBlock_spec candidate adapter)) ?_
  rintro (error | _ | result | error) actions h
  · exact .broken h
  · simp only [wp_bind]
    refine wp_mono (finish_spec .taskBlocked _) ?_
    rintro (error | result) last closes
    · exact .overBudget h closes
    · simpa [Passed] using Settles.overBudget h closes
  · obtain ⟨given, succeeded, carried⟩ := h
    simpa [Passed] using Settles.completed succeeded carried
  · simp only [← classified]
    cases retryable : isRetryable (deps.classifyError candidate.ref error) with
    | true => simpa [Passed] using ⟨error, h, retryable⟩
    | false =>
      simp only [Bool.not_false, if_true, wp_bind]
      refine wp_mono (finish_spec .taskFailed _) ?_
      rintro (error | result) last closes
      · exact .failed h retryable closes
      · simpa [Passed] using Settles.failed h retryable closes

theorem modelPass_wired {executionClass : ExecutionClass} {request : ModelRequest}
    {entry : ModelEntry} {adapter : ModelAdapter}
    (wired : deps.resolveModelAdapter entry.id = some adapter) (lastErrorClass : Option ErrorClass)
    (history : History) :
    wp (modelPass platform order deps executionClass request entry lastErrorClass) history
      (Passed platform order deps entry.ref (·.isSome) (·.isSome)
        (modelOverBudget executionClass entry) (modelFailed executionClass .adapterError)
        (ModelCarries executionClass entry)) := by
  have classified : ∀ error, deps.classifyError entry.ref error = adapter.classifyError error := by
    intro error
    simp [OrchestratorDeps.classifyError, ModelEntry.ref, wired]
  simp only [modelPass, wired, wp_bind]
  refine wp_mono (attemptAdapter_spec entry.ref
    (fun history => .model wired history _ _)
    (modelBlock_spec executionClass request entry adapter)) ?_
  rintro (error | _ | result | error) actions h
  · exact .broken h
  · simp only [wp_bind]
    refine wp_mono (finish_spec .taskBlocked _) ?_
    rintro (error | result) last closes
    · exact .overBudget h closes
    · simpa [Passed] using Settles.overBudget h closes
  · obtain ⟨given, succeeded, carried⟩ := h
    simpa [Passed] using Settles.completed succeeded carried
  · simp only [← classified]
    cases retryable : isRetryable (deps.classifyError entry.ref error) with
    | true => simpa [Passed] using ⟨error, h, retryable⟩
    | false => simpa [Passed] using ⟨error, h, retryable⟩

/-- The capability loop tries the wired candidates in order until one settles the run. -/
theorem capabilityLoop_run (routing : WorkRoutingDecision) :
    wp (forOf (capabilityPass platform order deps)
      (candidateCapabilities (workRoutingInput order) deps.workRegistry) false) history
      fun result actions => match result with
        | .ok (.finished attempted) =>
          FellThrough platform order deps ((wiredCapabilities order deps).map (·.ref)) actions ∧
            (attempted = true ↔ wiredCapabilities order deps ≠ [])
        | .ok (.returned result) => CapabilityRun platform order deps routing (.ok result) actions
        | .error error => CapabilityRun platform order deps routing (.error error) actions := by
  let wired := fun candidate : RegisteredCapability => (deps.capabilityAdapter candidate.id).isSome
  refine wp_forOf (fun passed attempted actions =>
    FellThrough platform order deps ((passed.filter wired).map (·.ref)) actions ∧
      (attempted = true ↔ passed.filter wired ≠ [])) ⟨.none, by simp⟩ ?_ fun _ _ h => h
  rintro passed candidate rest attempted actions split ⟨before, hAttempted⟩
  cases adapter : deps.capabilityAdapter candidate.id with
  | none =>
    have unwired : wired candidate = false := by simp [wired, adapter]
    simp only [capabilityPass, adapter, wp_pure, List.filter_append, List.append_nil]
    rw [List.filter_cons_of_neg (by simp [unwired]), List.filter_nil, List.append_nil]
    exact ⟨before, hAttempted⟩
  | some found =>
    have isWired : wired candidate = true := by simp [wired, adapter]
    have hSplit : wiredCapabilities order deps =
        passed.filter wired ++ candidate :: rest.filter wired := by
      rw [wiredCapabilities, split, List.filter_append, List.filter_cons_of_pos isWired]
    refine wp_mono (capabilityPass_wired adapter attempted _) ?_
    rintro (error | attempted' | attempted' | result) last h
    · exact .settled hSplit before h
    · obtain ⟨rfl, error, failed, retryable⟩ := h
      refine ⟨?_, by simp [List.filter_append, isWired]⟩
      simpa [List.filter_append, isWired] using FellThrough.more before failed retryable
    · exact h.1.elim
    · exact .settled hSplit before h

theorem modelPath_run (executionClass : ExecutionClass) :
    wp (modelPath platform order deps executionClass) history
      (ModelRun platform order deps executionClass) := by
  unfold modelPath
  cases present : order.modelRequest with
  | none => exact wp_mono (finish_spec _ _) fun _ _ closes => .missingRequest present closes
  | some request =>
  cases routed : routeModel platform.realm (modelRoutingInput order) deps.modelRegistry with
  | none => exact wp_mono (finish_spec _ _) fun _ _ closes => .noEligible routed closes
  | some decision =>
  let wired := fun entry : ModelEntry => (deps.resolveModelAdapter entry.id).isSome
  have chain : modelChain platform order deps = decision.model :: decision.fallbacks := by
    simp [modelChain, routed]
  have requested : order.modelRequest ≠ none := by simp [present]
  simp only [wp_bind]
  -- The error class that is left tells whether any entry was tried.
  refine wp_forOf (fun passed lastErrorClass actions =>
    FellThrough platform order deps ((passed.filter wired).map (·.ref)) actions ∧
      (lastErrorClass.isNone = true ↔ passed.filter wired = [])) ⟨.none, by simp⟩ ?_ ?_
  · rintro passed entry rest lastErrorClass actions split ⟨before, hLast⟩
    rw [← chain] at split
    cases adapter : deps.resolveModelAdapter entry.id with
    | none =>
      have unwired : wired entry = false := by simp [wired, adapter]
      simp only [modelPass, adapter, wp_pure, List.filter_append, List.append_nil]
      rw [List.filter_cons_of_neg (by simp [unwired]), List.filter_nil, List.append_nil]
      exact ⟨before, hLast⟩
    | some found =>
      have isWired : wired entry = true := by simp [wired, adapter]
      have hSplit : wiredModels platform order deps =
          passed.filter wired ++ entry :: rest.filter wired := by
        rw [wiredModels, split, List.filter_append, List.filter_cons_of_pos isWired]
      refine wp_mono (modelPass_wired adapter lastErrorClass _) ?_
      rintro (error | lastErrorClass' | lastErrorClass' | result) last h
      · exact .settled requested hSplit before h
      · obtain ⟨hSome, error, failed, retryable⟩ := h
        refine ⟨?_, ?_⟩
        · simpa [List.filter_append, isWired] using FellThrough.more before failed retryable
        · simp [List.filter_append, isWired, Option.isSome_iff_ne_none.mp hSome]
      · obtain ⟨hSome, error, failed, final⟩ := h
        have hNone : lastErrorClass'.isNone = false := by simpa using hSome
        simp only [hNone, Bool.false_eq_true, if_false]
        refine wp_mono (finish_spec _ _) fun outcome closing closes => ?_
        rw [List.append_assoc]
        exact .settled requested hSplit before (.failed failed final closes)
      · simpa using ModelRun.settled requested hSplit before h
  · rintro lastErrorClass actions ⟨before, hLast⟩
    refine wp_mono (finish_spec _ _) fun outcome closing closes => ?_
    have whole : (decision.model :: decision.fallbacks).filter wired =
        wiredModels platform order deps := by rw [wiredModels, chain]
    rw [whole] at before hLast
    exact .exhausted before (by simp [hLast]) closes

theorem capabilityPath_run (routing : WorkRoutingDecision) :
    wp (capabilityPath platform order deps routing) history
      (CapabilityRun platform order deps routing) := by
  rw [capabilityPath, wp_bind]
  refine wp_mono (capabilityLoop_run routing) ?_
  rintro (error | attempted | result) actions h
  · exact h
  · obtain ⟨before, hAttempted⟩ := h
    cases attempted with
    | false =>
      have absent : wiredCapabilities order deps = [] := by simpa using hAttempted
      rw [absent] at before
      rw [before.actions_nil]
      exact wp_mono (finish_spec _ _) fun _ _ closes => .unwired absent closes
    | true =>
      have wired : wiredCapabilities order deps ≠ [] := hAttempted.mp rfl
      simp only [Bool.not_true, Bool.false_eq_true, if_false]
      by_cases reasoned : order.needsReasoning = some true
      · simp only [reasoned, ne_eq, not_true_eq_false, if_false]
        exact wp_mono (modelPath_run .cloudAi) fun _ _ model =>
          .escalated wired before reasoned model
      · simp only [reasoned, ne_eq, not_false_eq_true, if_true]
        exact wp_mono (finish_spec _ _) fun _ _ closes =>
          .exhausted wired before reasoned closes
  · simpa using h

theorem routeOrder_run :
    wp (routeOrder platform order deps) history (RouteRun platform order deps) := by
  rw [routeOrder, wp_bind]
  refine wp_mono (emit_spec _) ?_
  rintro (error | ⟨⟩) actions planned
  · exact .unplanned planned
  simp only [← orderRouting.eq_1]
  split
  case isTrue routed =>
    exact wp_mono (finish_spec _ _) fun _ _ closes => .human planned routed closes
  case isFalse machine =>
    cases routed : isAiExecutionClass (orderRouting order deps).executionClass with
    | false =>
      exact wp_mono (capabilityPath_run _) fun _ _ run => .capability planned machine routed run
    | true => exact wp_mono (modelPath_run _) fun _ _ run => .model planned routed run

/-- Every run of the orchestrator, whatever its bus and its adapters reply. -/
theorem executeWorkOrder_run :
    wp (executeWorkOrder platform order deps) history (OrderRun platform order deps) := by
  unfold executeWorkOrder
  cases present : order.policy with
  | none =>
    have allowed : PolicyAllows platform order := by simp [PolicyAllows, present]
    exact wp_mono routeOrder_run fun _ _ run => .routed allowed run
  | some policy =>
    rw [wp_bind, wp_liftTypeError]
    cases evaluated : evaluate platform.realm policy with
    | error reason => exact .broken present evaluated
    | ok decision =>
      simp only [Except.mapError, List.append_nil, List.nil_append]
      cases effect : decision.effect with
      | deny => exact wp_mono (finish_spec _ _) fun _ _ => .denied present evaluated effect
      | requiresApproval =>
        exact wp_mono (finish_spec _ _) fun _ _ => .approval present evaluated effect
      | allow =>
        have allowed : PolicyAllows platform order := by
          intro policy' present'
          obtain rfl : policy = policy' := by simpa [present] using present'
          exact ⟨decision, evaluated, effect⟩
        exact wp_mono routeOrder_run fun _ _ run => .routed allowed run

theorem OrderRun.of_run {outcome : Except Thrown WorkOrderResult} {actions : List Action}
    (run : executeWorkOrder platform order deps history = (outcome, actions)) :
    OrderRun platform order deps outcome actions := by
  have all : wp (executeWorkOrder platform order deps) history (OrderRun platform order deps) :=
    executeWorkOrder_run
  rwa [wp, run] at all

end Specs

end Donna
