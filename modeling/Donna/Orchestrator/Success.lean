import Donna.Orchestrator.Attempts

/-! What follows a successful execution, whatever the bus does.  The completion event is published
inside the `try` block whose `catch` decides on fallback, so a bus that rejects it makes the run
treat a successful execution as a failed attempt. -/

namespace Donna

open Js Async Async.Program

def ledger (actions : List Action) : List UsageRecord :=
  actions.filterMap fun
    | .recorded entry => some entry
    | _ => none

/-- After a call that resolved no other call is started, the ledger has exactly one record, and the
status is completed if the run returns. -/
def OneSuccess (outcome : Except Thrown WorkOrderResult) (actions : List Action) : Prop :=
  ∀ before adapter reply after, actions = before ++ .executed adapter (.ok reply) :: after →
    calls after = [] ∧ (ledger actions).length = 1 ∧
      ∀ result, outcome = .ok result → result.status = .completed

def CompletionsAccepted (actions : List Action) : Prop :=
  ∀ event error, .published event (.error error) ∈ actions → event.type ≠ .taskCompleted

def Resolved (actions : List Action) : Prop :=
  ∃ adapter reply, .executed adapter (.ok reply) ∈ actions

section Pieces

variable {platform : Platform} {order : WorkOrder} {deps : OrchestratorDeps}
  {outcome : Except Thrown WorkOrderResult} {actions more : List Action} {adapter : AdapterRef}

@[simp] theorem ledger_append (actions more : List Action) :
    ledger (actions ++ more) = ledger actions ++ ledger more := List.filterMap_append

theorem resolved_append : Resolved (actions ++ more) ↔ Resolved actions ∨ Resolved more := by
  simp only [Resolved, List.mem_append, exists_or]

theorem completionsAccepted_append :
    CompletionsAccepted (actions ++ more) ↔
      CompletionsAccepted actions ∧ CompletionsAccepted more := by
  simp only [CompletionsAccepted, List.mem_append, or_imp, forall_and]

/-- Actions in which calls resolve only when their completion event is rejected, and that record
nothing otherwise. -/
structure Accounted (actions : List Action) : Prop where
  resolved : Resolved actions ↔ ¬ CompletionsAccepted actions
  unrecorded : ¬ Resolved actions → ledger actions = []

theorem Accounted.append (left : Accounted actions) (right : Accounted more) :
    Accounted (actions ++ more) := by
  constructor
  · rw [resolved_append, completionsAccepted_append, left.resolved, right.resolved, not_and_or]
  · intro unresolved
    rw [resolved_append, not_or] at unresolved
    rw [ledger_append, left.unrecorded unresolved.1, right.unrecorded unresolved.2,
      List.append_nil]

/-- Actions without a call that resolved, a record or a rejected completion event. -/
structure Uneventful (actions : List Action) : Prop where
  unresolved : ¬ Resolved actions
  accepted : CompletionsAccepted actions
  unrecorded : ledger actions = []

theorem Uneventful.accounted (uneventful : Uneventful actions) : Accounted actions where
  resolved := iff_of_false uneventful.unresolved (not_not_intro uneventful.accepted)
  unrecorded := fun _ => uneventful.unrecorded

theorem Uneventful.append (left : Uneventful actions) (right : Uneventful more) :
    Uneventful (actions ++ more) where
  unresolved := by
    rw [resolved_append, not_or]
    exact ⟨left.unresolved, right.unresolved⟩
  accepted := completionsAccepted_append.mpr ⟨left.accepted, right.accepted⟩
  unrecorded := by rw [ledger_append, left.unrecorded, right.unrecorded, List.append_nil]

theorem uneventful_nil : Uneventful [] where
  unresolved := by simp [Resolved]
  accepted := by simp [CompletionsAccepted]
  unrecorded := rfl

theorem uneventful_estimated (reply : Except Thrown CostEstimate) :
    Uneventful [.estimated adapter reply] where
  unresolved := by simp [Resolved]
  accepted := by simp [CompletionsAccepted]
  unrecorded := rfl

theorem uneventful_rejected (error : Thrown) : Uneventful [.executed adapter (.error error)] where
  unresolved := by simp [Resolved]
  accepted := by simp [CompletionsAccepted]
  unrecorded := rfl

theorem Emits.uneventful {type : EventType} {reply : Except Thrown Unit}
    (emits : Emits order deps type reply actions)
    (harmless : type ≠ .taskCompleted ∨ reply = .ok ()) : Uneventful actions := by
  obtain ⟨history, fresh⟩ := emits
  refine ⟨by simp [Resolved], ?_, rfl⟩
  intro event error present
  obtain ⟨rfl, hReply⟩ : event = order.event fresh type ∧ _ := by simpa using present
  rcases harmless with other | accepted
  · exact other
  · rw [accepted] at hReply
    cases hReply

theorem Closes.uneventful {type : EventType} {result : WorkOrderResult}
    (closes : Closes order deps type result outcome actions) (other : type ≠ .taskCompleted) :
    Uneventful actions := by
  cases closes with
  | returned emits => exact emits.uneventful (.inl other)
  | threw emits => exact emits.uneventful (.inl other)

theorem Cleared.uneventful (cleared : Cleared platform order deps adapter actions) :
    Uneventful actions := by
  cases cleared with
  | unbudgeted => exact uneventful_nil
  | within => exact uneventful_estimated _

theorem Started.uneventful (started : Started platform order deps adapter actions) :
    Uneventful actions := by
  obtain ⟨cleared, worker, tool⟩ := started
  exact (cleared.uneventful.append (worker.uneventful (.inl (by simp)))).append
    (tool.uneventful (.inl (by simp)))

theorem OverBudget.uneventful (refusal : OverBudget platform order deps adapter actions) :
    Uneventful actions := by
  cases refusal
  exact uneventful_estimated _

theorem Broken.uneventful {error : Thrown}
    (broken : Broken platform order deps adapter error actions) : Uneventful actions := by
  cases broken with
  | estimate => exact uneventful_estimated _
  | budget => exact uneventful_estimated _
  | worker cleared worker =>
    exact cleared.uneventful.append (worker.uneventful (.inl (by simp)))
  | tool cleared worker tool =>
    exact (cleared.uneventful.append (worker.uneventful (.inl (by simp)))).append
      (tool.uneventful (.inl (by simp)))

theorem Failed.accounted {error : Thrown}
    (failed : Failed platform order deps adapter error actions) : Accounted actions := by
  cases failed with
  | rejected started => exact (started.uneventful.append (uneventful_rejected error)).accounted
  | @unannounced _ outcome reply entry started completed =>
    obtain ⟨event, hType, rfl⟩ : ∃ event, event.type = .taskCompleted ∧
        outcome = [.published event (.error error)] := by
      generalize hReply : (Except.error error : Except Thrown Unit) = reply at completed
      obtain ⟨history, fresh⟩ := completed
      rw [← hReply]
      exact ⟨_, rfl, rfl⟩
    have resolved : Resolved [.executed adapter (.ok reply), .recorded entry,
        .published event (.error error)] := ⟨adapter, reply, by simp⟩
    rw [List.append_assoc]
    refine started.uneventful.accounted.append ⟨iff_of_true resolved ?_, absurd resolved⟩
    exact fun accepted => accepted event error (by simp) hType

theorem FellThrough.accounted {tried : List AdapterRef}
    (fell : FellThrough platform order deps tried actions) : Accounted actions := by
  induction fell with
  | none => exact uneventful_nil.accounted
  | more _ failed _ ih => exact ih.append failed.accounted

/-! ### Every run -/

/-- A run either does not complete its order or ends with an attempt that completes it. -/
inductive Verdict (platform : Platform) (order : WorkOrder) (deps : OrchestratorDeps) :
    Except Thrown WorkOrderResult → List Action → Prop
  | unfinished {outcome : Except Thrown WorkOrderResult} {actions : List Action}
      (accounted : Accounted actions)
      (other : ∀ result, outcome = .ok result → result.status ≠ .completed) :
      Verdict platform order deps outcome actions
  | completed {adapter : AdapterRef} {reply : Reply} {result : WorkOrderResult}
      {before last : List Action} (accounted : Accounted before)
      (succeeded : Succeeded platform order deps adapter reply last)
      (status : result.status = .completed) :
      Verdict platform order deps (.ok result) (before ++ last)

theorem Verdict.prepend (accounted : Accounted actions)
    (verdict : Verdict platform order deps outcome more) :
    Verdict platform order deps outcome (actions ++ more) := by
  cases verdict with
  | unfinished later other => exact .unfinished (accounted.append later) other
  | completed later succeeded status =>
    rw [← List.append_assoc]
    exact .completed (accounted.append later) succeeded status

theorem Closes.verdict {type : EventType} {result : WorkOrderResult}
    (closes : Closes order deps type result outcome actions) (other : type ≠ .taskCompleted)
    (status : result.status ≠ .completed) : Verdict platform order deps outcome actions := by
  refine .unfinished (closes.uneventful other).accounted ?_
  rintro given rfl
  cases closes
  exact status

theorem Settles.verdict {overBudget failed : WorkOrderResult}
    {completed : Reply → WorkOrderResult → Prop}
    (settles : Settles platform order deps adapter overBudget failed completed outcome actions)
    (hOver : overBudget.status ≠ .completed) (hFailed : failed.status ≠ .completed)
    (hCompleted : ∀ reply result, completed reply result → result.status = .completed) :
    Verdict platform order deps outcome actions := by
  cases settles with
  | broken attempt => exact .unfinished attempt.uneventful.accounted (by simp)
  | overBudget attempt closes =>
    exact .prepend attempt.uneventful.accounted (closes.verdict (by simp) hOver)
  | completed attempt carries =>
    exact .completed uneventful_nil.accounted attempt (hCompleted _ _ carries)
  | failed attempt final closes =>
    exact .prepend attempt.accounted (closes.verdict (by simp) hFailed)

theorem ModelRun.verdict {executionClass : ExecutionClass}
    (run : ModelRun platform order deps executionClass outcome actions) :
    Verdict platform order deps outcome actions := by
  cases run with
  | missingRequest _ closes | noEligible _ closes =>
    exact closes.verdict (by simp) (by simp [modelFailed])
  | @settled _ _ entry _ _ _ requested split before settles =>
    refine .prepend before.accounted
      (settles.verdict (by simp [modelOverBudget]) (by simp [modelFailed]) ?_)
    exact fun reply result
        (carries : (Candidate.model executionClass entry).Carries reply result) =>
      carries.status
  | exhausted before unwired closes =>
    exact .prepend before.accounted (closes.verdict (by simp) (by simp [modelFailed]))

theorem CapabilityRun.verdict {routing : WorkRoutingDecision}
    (run : CapabilityRun platform order deps routing outcome actions) :
    Verdict platform order deps outcome actions := by
  cases run with
  | @settled _ _ candidate _ _ _ split before settles =>
    refine .prepend before.accounted
      (settles.verdict (by simp [capabilityOverBudget]) (by simp [capabilityFailed]) ?_)
    exact fun reply result (carries : (Candidate.capability candidate).Carries reply result) =>
      carries.status
  | unwired absent closes => exact closes.verdict (by simp) (by simp [capabilityUnwired])
  | exhausted _ before _ closes =>
    exact .prepend before.accounted (closes.verdict (by simp) (by simp [capabilityExhausted]))
  | escalated _ before _ model => exact .prepend before.accounted model.verdict

theorem OrderRun.verdict (run : OrderRun platform order deps outcome actions) :
    Verdict platform order deps outcome actions := by
  cases run with
  | broken => exact .unfinished uneventful_nil.accounted (by simp)
  | denied _ _ _ closes => exact closes.verdict (by simp) (by simp [policyDenied])
  | approval _ _ _ closes => exact closes.verdict (by simp) (by simp [policyApproval])
  | routed allowed run =>
    cases run with
    | unplanned planned =>
      exact .unfinished (planned.uneventful (.inl (by simp))).accounted (by simp)
    | human planned routed closes =>
      exact .prepend (planned.uneventful (.inl (by simp))).accounted
        (closes.verdict (by simp) (by simp [awaitingHuman]))
    | capability planned machine routed run =>
      exact .prepend (planned.uneventful (.inl (by simp))).accounted run.verdict
    | model planned routed run =>
      exact .prepend (planned.uneventful (.inl (by simp))).accounted run.verdict

theorem Succeeded.accepted {reply : Reply}
    (succeeded : Succeeded platform order deps adapter reply actions) :
    CompletionsAccepted actions := by
  obtain ⟨entry, started, completed⟩ := succeeded
  refine completionsAccepted_append.mpr ⟨completionsAccepted_append.mpr
    ⟨started.uneventful.accepted, by simp [CompletionsAccepted]⟩, ?_⟩
  exact (completed.uneventful (.inr rfl)).accepted

theorem Succeeded.ledger_length {reply : Reply}
    (succeeded : Succeeded platform order deps adapter reply actions) :
    (ledger actions).length = 1 := by
  obtain ⟨entry, started, completed⟩ := succeeded
  rw [ledger_append, ledger_append, started.uneventful.unrecorded,
    (completed.uneventful (.inr rfl)).unrecorded]
  rfl

theorem Succeeded.last_call {reply reply' : Reply} {adapter' : AdapterRef}
    {before after : List Action}
    (succeeded : Succeeded platform order deps adapter reply actions)
    (split : actions = before ++ .executed adapter' (.ok reply') :: after) : calls after = [] := by
  have only := succeeded.calls_eq
  rw [split, calls_append, calls_executed] at only
  have count := congrArg List.length only
  simp only [List.length_append, List.length_cons, List.length_nil] at count
  exact List.eq_nil_of_length_eq_zero (by omega)

/-- A run in which the bus accepts every completion event has at most one success. -/
theorem Verdict.oneSuccess (verdict : Verdict platform order deps outcome actions)
    (accepted : CompletionsAccepted actions) : OneSuccess outcome actions := by
  intro before adapter reply after split
  have resolved : Resolved actions := ⟨adapter, reply, by simp [split]⟩
  cases verdict with
  | unfinished accounted other => exact absurd accepted (accounted.resolved.mp resolved)
  | completed accounted succeeded status =>
    have unresolved : ¬ Resolved _ := fun h =>
      accounted.resolved.mp h (completionsAccepted_append.mp accepted).1
    refine ⟨?_, ?_, by rintro result ⟨⟩; exact status⟩
    · rcases split_append split with ⟨middle, rfl, -⟩ | ⟨middle, -, hLast⟩
      · exact absurd ⟨adapter, reply, by simp⟩ unresolved
      · exact succeeded.last_call hLast
    · rw [ledger_append, accounted.unrecorded unresolved, List.nil_append]
      exact succeeded.ledger_length

/-- A run that returns has at most one success only if the bus accepts every completion event. -/
theorem Verdict.accepted (verdict : Verdict platform order deps outcome actions)
    {result : WorkOrderResult} (returned : outcome = .ok result)
    (one : OneSuccess outcome actions) : CompletionsAccepted actions := by
  cases verdict with
  | unfinished accounted other =>
    by_contra rejected
    obtain ⟨adapter, reply, present⟩ := accounted.resolved.mpr rejected
    obtain ⟨before, after, split⟩ := List.append_of_mem present
    exact other result returned ((one _ _ _ _ split).2.2 result returned)
  | @completed _ _ _ before last accounted succeeded status =>
    refine completionsAccepted_append.mpr ⟨?_, succeeded.accepted⟩
    by_contra rejected
    obtain ⟨adapter, reply, present⟩ := accounted.resolved.mpr rejected
    obtain ⟨earlier, later, rfl⟩ := List.append_of_mem present
    have none := (one earlier adapter reply (later ++ last) (by simp)).1
    simp [succeeded.calls_eq] at none

end Pieces

/-- In every run in which the bus accepts each completion event, a call that resolved is the last
one, is recorded once and completes the order; and a run that returns meets this only then. -/
theorem executeWorkOrder_oneSuccess (platform : Platform) (order : WorkOrder)
    (deps : OrchestratorDeps) (history : History) :
    wp (executeWorkOrder platform order deps) history fun outcome actions =>
      (CompletionsAccepted actions → OneSuccess outcome actions) ∧
        ∀ result, outcome = .ok result →
          (OneSuccess outcome actions ↔ CompletionsAccepted actions) := by
  refine wp_mono executeWorkOrder_run fun outcome actions run => ?_
  refine ⟨run.verdict.oneSuccess, fun result returned => ?_⟩
  exact ⟨run.verdict.accepted returned, run.verdict.oneSuccess⟩

/-- A bus that rejects a completion event after exactly one call. -/
def FlakyEventBus : EventBus where
  publish history event :=
    if event.type = .taskCompleted ∧ (calls history).length = 1 then
      .error (.value (.string "connection lost"))
    else .ok ()

/-- Both providers succeed, and the API classifies unknown errors as transient. -/
def crmFlakyDeps : OrchestratorDeps :=
  crmDeps FlakyEventBus (.constant (.ok (.string "updated")) .transient)

theorem executeWorkOrder_executes_twice :
    ¬ wp (executeWorkOrder .plain { crmOrder with budget := none } crmFlakyDeps) [] OneSuccess := by
  intro one
  let actions := (executeWorkOrder .plain { crmOrder with budget := none } crmFlakyDeps []).2
  have split : actions = actions.take 3 ++
      .executed (.capability "crm-api") (.ok (.output (.string "updated"))) :: actions.drop 4 := rfl
  have second : calls (actions.drop 4) =
      [(.capability "crm-browser", .ok (.output (.string "updated")))] := rfl
  have none := (one _ _ _ _ split).1
  rw [second] at none
  cases none

end Donna
