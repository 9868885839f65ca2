import Donna.Orchestrator.Attempts

/-! The trace of a run when the bus and the estimates resolve: the types of the events that it
publishes, in order.  A run that passes the policy gate plans, publishes a pair of start events for
each call, and ends with the one outcome event of its status. -/

namespace Donna

open Js Async Async.Program

theorem drain_append (actions more : List Action) :
    drain (actions ++ more) = drain actions ++ drain more := List.filterMap_append

def eventTypes (actions : List Action) : List EventType := (drain actions).map (·.type)

@[simp] theorem eventTypes_append (actions more : List Action) :
    eventTypes (actions ++ more) = eventTypes actions ++ eventTypes more := by
  rw [eventTypes, drain_append, List.map_append]
  rfl

/-- The start events of a number of calls. -/
def startEvents (count : ℕ) : List EventType :=
  (List.replicate count [.workerStarted, .toolCalled]).flatten

theorem startEvents_add (count more : ℕ) :
    startEvents (count + more) = startEvents count ++ startEvents more := by
  rw [startEvents, List.replicate_add, List.flatten_append]
  rfl

theorem mem_startEvents {count : ℕ} {type : EventType} (listed : type ∈ startEvents count) :
    type = .workerStarted ∨ type = .toolCalled := by
  obtain ⟨pair, replicated, listed⟩ := List.mem_flatten.mp listed
  rw [List.eq_of_mem_replicate replicated] at listed
  simpa using listed

/-- The event that announces a status once a run has planned. -/
def outcomeEvent : WorkOrderStatus → EventType
  | .completed => .taskCompleted
  | .failed => .taskFailed
  | .denied | .blocked | .budgetExceeded | .awaitingHuman => .taskBlocked
  | .approvalRequired => .approvalRequested

/-- The traces of a run that makes `count` calls and ends in a status. -/
inductive TraceShape (count : ℕ) : WorkOrderStatus → List EventType → Prop
  | denied : TraceShape count .denied [.taskBlocked]
  | approval : TraceShape count .approvalRequired [.approvalRequested]
  | planned {status : WorkOrderStatus} (notDenied : status ≠ .denied)
      (notApproval : status ≠ .approvalRequired) :
      TraceShape count status (.taskPlanned :: (startEvents count ++ [outcomeEvent status]))

/-- Every event that a list of actions publishes is one of the order's. -/
def OwnEvents (order : WorkOrder) (actions : List Action) : Prop :=
  ∀ event ∈ drain actions,
    event.organizationId = order.organizationId ∧ event.taskId = order.taskId

/-- Actions that publish the start events of their calls, and nothing else. -/
structure Paired (order : WorkOrder) (actions : List Action) : Prop where
  types : eventTypes actions = startEvents (calls actions).length
  own : OwnEvents order actions

/-- Actions that publish the start events of their calls and then the outcome event of a status
that follows planning. -/
structure Announced (order : WorkOrder) (status : WorkOrderStatus) (actions : List Action) : Prop
    where
  types : eventTypes actions = startEvents (calls actions).length ++ [outcomeEvent status]
  notDenied : status ≠ .denied
  notApproval : status ≠ .approvalRequired
  own : OwnEvents order actions

section Pieces

variable {platform : Platform} {order : WorkOrder} {deps : OrchestratorDeps}
  {outcome : Except Thrown WorkOrderResult} {actions more : List Action} {adapter : AdapterRef}
  {result : WorkOrderResult}

theorem OwnEvents.append (left : OwnEvents order actions) (right : OwnEvents order more) :
    OwnEvents order (actions ++ more) := by
  intro event published
  rw [drain_append] at published
  rcases List.mem_append.mp published with h | h
  · exact left event h
  · exact right event h

theorem Paired.append (left : Paired order actions) (right : Paired order more) :
    Paired order (actions ++ more) where
  types := by
    rw [eventTypes_append, left.types, right.types, calls_append, List.length_append,
      startEvents_add]
  own := left.own.append right.own

theorem Announced.prepend {status : WorkOrderStatus} (left : Paired order actions)
    (right : Announced order status more) : Announced order status (actions ++ more) where
  types := by
    rw [eventTypes_append, left.types, right.types, calls_append, List.length_append,
      startEvents_add, List.append_assoc]
  notDenied := right.notDenied
  notApproval := right.notApproval
  own := left.own.append right.own

theorem paired_nil : Paired order [] where
  types := rfl
  own := by simp [OwnEvents, drain]

theorem Emits.event {type : EventType} {reply : Except Thrown Unit}
    (emits : Emits order deps type reply actions) :
    eventTypes actions = [type] ∧ calls actions = [] ∧ OwnEvents order actions := by
  obtain ⟨history, fresh⟩ := emits
  refine ⟨rfl, rfl, ?_⟩
  intro event published
  obtain rfl := List.mem_singleton.mp published
  exact ⟨rfl, rfl⟩

theorem Closes.announced (publishes : deps.bus.Resolves) {type : EventType}
    {given : WorkOrderResult} (closes : Closes order deps type given outcome actions)
    (returned : outcome = .ok result) (announces : type = outcomeEvent given.status)
    (notDenied : given.status ≠ .denied) (notApproval : given.status ≠ .approvalRequired) :
    Announced order result.status actions := by
  rw [publishes.closes_ok closes] at returned
  obtain rfl := Except.ok.inj returned
  have event : eventTypes actions = [type] ∧ calls actions = [] ∧ OwnEvents order actions := by
    cases closes with
    | returned emits => exact emits.event
    | threw emits => exact emits.event
  obtain ⟨types, silent, own⟩ := event
  exact ⟨by rw [types, silent, announces]; rfl, notDenied, notApproval, own⟩

theorem Cleared.silent (cleared : Cleared platform order deps adapter actions) :
    drain actions = [] := by
  cases cleared <;> rfl

theorem Started.events (started : Started platform order deps adapter actions) :
    eventTypes actions = startEvents 1 ∧ OwnEvents order actions := by
  obtain ⟨cleared, worker, tool⟩ := started
  obtain ⟨workerTypes, -, workerOwn⟩ := worker.event
  obtain ⟨toolTypes, -, toolOwn⟩ := tool.event
  have gateOwn : OwnEvents order _ := fun event published => by
    rw [cleared.silent] at published
    cases published
  refine ⟨?_, (gateOwn.append workerOwn).append toolOwn⟩
  rw [eventTypes_append, eventTypes_append, workerTypes, toolTypes, eventTypes, cleared.silent]
  rfl

theorem Failed.paired (publishes : deps.bus.Resolves) {error : Thrown}
    (failed : Failed platform order deps adapter error actions) : Paired order actions := by
  have called := failed.calls_eq publishes
  obtain ⟨start, started, rfl⟩ := failed.rejected_call publishes
  obtain ⟨types, own⟩ := started.events
  refine ⟨?_, own.append (by simp [OwnEvents, drain])⟩
  rw [called, eventTypes_append, types]
  rfl

theorem OverBudget.paired (refusal : OverBudget platform order deps adapter actions) :
    Paired order actions := by
  cases refusal
  exact ⟨rfl, by simp [OwnEvents, drain]⟩

theorem FellThrough.paired (publishes : deps.bus.Resolves) {tried : List AdapterRef}
    (fell : FellThrough platform order deps tried actions) : Paired order actions := by
  induction fell with
  | none => exact paired_nil
  | more _ failed _ ih => exact ih.append (failed.paired publishes)

theorem Succeeded.announced {reply : Reply} (status : result.status = .completed)
    (succeeded : Succeeded platform order deps adapter reply actions) :
    Announced order result.status actions := by
  have called := succeeded.calls_eq
  obtain ⟨entry, started, completed⟩ := succeeded
  obtain ⟨types, own⟩ := started.events
  obtain ⟨outcomeTypes, -, outcomeOwn⟩ := completed.event
  have silent : OwnEvents order [.executed adapter (.ok reply), .recorded entry] := by
    simp [OwnEvents, drain]
  refine ⟨?_, by simp [status], by simp [status], (own.append silent).append outcomeOwn⟩
  rw [called, status, eventTypes_append, eventTypes_append, types, outcomeTypes]
  rfl

/-! ### Every run -/

theorem Settles.announced (publishes : deps.bus.Resolves) {overBudget failed : WorkOrderResult}
    {completed : Reply → WorkOrderResult → Prop}
    (settles : Settles platform order deps adapter overBudget failed completed outcome actions)
    (hOver : overBudget.status = .budgetExceeded) (hFailed : failed.status = .failed)
    (hCompleted : ∀ reply result, completed reply result → result.status = .completed)
    (returned : outcome = .ok result) : Announced order result.status actions := by
  cases settles with
  | broken attempt => cases returned
  | overBudget attempt closes =>
    have alone := attempt.paired
    exact .prepend alone (closes.announced publishes returned (by rw [hOver]; rfl)
      (by simp [hOver]) (by simp [hOver]))
  | completed attempt carries =>
    cases returned
    exact attempt.announced (hCompleted _ _ carries)
  | failed attempt final closes =>
    exact .prepend (attempt.paired publishes) (closes.announced publishes returned
      (by rw [hFailed]; rfl) (by simp [hFailed]) (by simp [hFailed]))

theorem ModelRun.announced (publishes : deps.bus.Resolves) {executionClass : ExecutionClass}
    (run : ModelRun platform order deps executionClass outcome actions)
    (returned : outcome = .ok result) : Announced order result.status actions := by
  cases run with
  | missingRequest _ closes | noEligible _ closes =>
    exact closes.announced publishes returned rfl nofun nofun
  | @settled _ _ entry _ _ _ requested split before settles =>
    refine .prepend (before.paired publishes) (settles.announced publishes rfl rfl ?_ returned)
    exact fun reply result
      (carries : (Candidate.model executionClass entry).Carries reply result) => carries.status
  | exhausted before unwired closes =>
    exact .prepend (before.paired publishes)
      (closes.announced publishes returned rfl nofun nofun)

theorem CapabilityRun.announced (publishes : deps.bus.Resolves) {routing : WorkRoutingDecision}
    (run : CapabilityRun platform order deps routing outcome actions)
    (returned : outcome = .ok result) : Announced order result.status actions := by
  cases run with
  | @settled _ _ candidate _ _ _ split before settles =>
    refine .prepend (before.paired publishes) (settles.announced publishes rfl rfl ?_ returned)
    exact fun reply result
      (carries : (Candidate.capability candidate).Carries reply result) => carries.status
  | unwired absent closes =>
    exact closes.announced publishes returned rfl nofun nofun
  | exhausted _ before _ closes =>
    exact .prepend (before.paired publishes)
      (closes.announced publishes returned rfl nofun nofun)
  | escalated _ before _ model =>
    exact .prepend (before.paired publishes) (model.announced publishes returned)

theorem RouteRun.trace (publishes : deps.bus.Resolves)
    (run : RouteRun platform order deps outcome actions) (returned : outcome = .ok result) :
    TraceShape (calls actions).length result.status (eventTypes actions) ∧
      OwnEvents order actions := by
  have whole : ∀ {planning later : List Action},
      Emits order deps .taskPlanned (.ok ()) planning → Announced order result.status later →
      TraceShape (calls (planning ++ later)).length result.status
          (eventTypes (planning ++ later)) ∧ OwnEvents order (planning ++ later) := by
    intro planning later planned announced
    obtain ⟨types, silent, own⟩ := planned.event
    refine ⟨?_, own.append announced.own⟩
    rw [eventTypes_append, types, announced.types, calls_append, silent, List.nil_append]
    exact .planned announced.notDenied announced.notApproval
  cases run with
  | unplanned planned => cases returned
  | human planned routed closes =>
    exact whole planned (closes.announced publishes returned rfl nofun nofun)
  | capability planned machine routed run => exact whole planned (run.announced publishes returned)
  | model planned routed run => exact whole planned (run.announced publishes returned)

/-- Where the bus resolves, the trace of a run that returns has the shape of its status. -/
theorem OrderRun.trace (publishes : deps.bus.Resolves)
    (run : OrderRun platform order deps outcome actions) (returned : outcome = .ok result) :
    TraceShape (calls actions).length result.status (eventTypes actions) ∧
      OwnEvents order actions := by
  -- A run that the policy gate ends publishes one event.
  have gated : ∀ {type : EventType} {decided : WorkOrderResult},
      Closes order deps type decided outcome actions →
      result = decided ∧ eventTypes actions = [type] ∧ OwnEvents order actions := by
    intro type decided closes
    have same := publishes.closes_ok closes
    rw [returned] at same
    refine ⟨Except.ok.inj same, ?_⟩
    cases closes with
    | returned emits => exact ⟨emits.event.1, emits.event.2.2⟩
    | threw emits => cases returned
  cases run with
  | broken => cases returned
  | denied present evaluated effect closes =>
    obtain ⟨rfl, types, own⟩ := gated closes
    rw [types]
    exact ⟨.denied, own⟩
  | approval present evaluated effect closes =>
    obtain ⟨rfl, types, own⟩ := gated closes
    rw [types]
    exact ⟨.approval, own⟩
  | routed allowed run => exact run.trace publishes returned

end Pieces

end Donna
