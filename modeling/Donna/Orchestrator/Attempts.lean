import Donna.Orchestrator.Runs
import Donna.Policy.Decision

/-! The discipline of a run's attempts when the bus and the estimates resolve: which adapters it
calls and in what order, what stands before a call, what ends the run, and what its result carries.
`Course` is the shape of a run that the rules follow from: attempts that fell through, and then
either no further call, or one last call that ends the run. -/

namespace Donna

open Js Async Async.Program

def EventBus.Resolves (bus : EventBus) : Prop :=
  ∀ history event, bus.publish history event = .ok ()

def OrchestratorDeps.EstimatesResolve (deps : OrchestratorDeps) : Prop :=
  ∀ adapter reply, Estimates deps adapter reply → ∃ est, reply = .ok est

theorem BufferingEventBus.resolves : BufferingEventBus.Resolves := fun _ _ => rfl

/-- The budget gate of an order, as its TypeScript type has it. -/
def budgetGateToJs (budget : Budget) (spentUsd : ℚ) : JsValue := .object [
  ("budget", budget.toJs),
  ("spentUsd", .number (.finite spentUsd))]

/-- The gates of the order are values of their TypeScript types. -/
structure WorkOrder.WellTyped (order : WorkOrder) : Prop where
  policy : ∀ policy, order.policy = some policy → ∃ input : PolicyInput, policy = input.toJs
  budget : ∀ gate, order.budget = some gate →
    ∃ budget spentUsd, gate = budgetGateToJs budget spentUsd

/-! ### Calls -/

def calls (actions : List Action) : List (AdapterRef × Except Thrown Reply) :=
  actions.filterMap fun
    | .executed adapter reply => some (adapter, reply)
    | _ => none

@[simp] theorem calls_nil : calls [] = [] := rfl

@[simp] theorem calls_append (actions more : List Action) :
    calls (actions ++ more) = calls actions ++ calls more := List.filterMap_append

@[simp] theorem calls_published (event : EventEnvelope) (reply : Except Thrown Unit)
    (actions : List Action) : calls (.published event reply :: actions) = calls actions := rfl

@[simp] theorem calls_estimated (adapter : AdapterRef) (reply : Except Thrown CostEstimate)
    (actions : List Action) : calls (.estimated adapter reply :: actions) = calls actions := rfl

@[simp] theorem calls_recorded (entry : UsageRecord) (actions : List Action) :
    calls (.recorded entry :: actions) = calls actions := rfl

@[simp] theorem calls_executed (adapter : AdapterRef) (reply : Except Thrown Reply)
    (actions : List Action) :
    calls (.executed adapter reply :: actions) = (adapter, reply) :: calls actions := rfl

/-- The run only publishes. -/
def Quiet (actions : List Action) : Prop :=
  ∀ action ∈ actions, ∃ event reply, action = .published event reply

/-- A call that was rejected with an error that its own adapter classifies as retryable. -/
def FailedRetryably (deps : OrchestratorDeps) (call : AdapterRef × Except Thrown Reply) : Prop :=
  ∃ error, call.2 = .error error ∧ isRetryable (deps.classifyError call.1 error) = true

section Discipline

variable (platform : Platform) (order : WorkOrder) (deps : OrchestratorDeps)

/-- Before every call of an order with a budget stand an allowed check of that adapter's own
estimate and the two start events. -/
def Guarded (actions : List Action) : Prop :=
  ∀ before adapter reply after, actions = before ++ .executed adapter reply :: after →
    ∀ gate, order.budget = some gate → ∃ earlier est check started called,
      before = earlier ++ [.estimated adapter (.ok est), .published started (.ok ()),
        .published called (.ok ())] ∧
      Estimates deps adapter (.ok est) ∧
      checkOrderBudget platform.realm gate est = .ok check ∧ check.allowed = true ∧
      started.type = .workerStarted ∧ called.type = .toolCalled

/-- The budget of the order refuses the estimate. -/
def Refused (est : CostEstimate) : Prop :=
  ∃ gate check, order.budget = some gate ∧
    checkOrderBudget platform.realm gate est = .ok check ∧ check.allowed = false

/-- After a refused estimate the run only publishes, and ends over budget. -/
def StopsWhenRefused (outcome : Except Thrown WorkOrderResult) (actions : List Action) : Prop :=
  ∀ before adapter est after, actions = before ++ .estimated adapter (.ok est) :: after →
    Refused platform order est →
    Quiet after ∧ ∃ result, outcome = .ok result ∧ result.status = .budgetExceeded

/-- A candidate of one of the two loops; a model stands with the class of its path. -/
inductive Candidate
  | capability (candidate : RegisteredCapability)
  | model (executionClass : ExecutionClass) (entry : ModelEntry)

def Candidate.ref : Candidate → AdapterRef
  | .capability candidate => candidate.ref
  | .model _ entry => entry.ref

/-- The result that a reply of the candidate completes the order with. -/
def Candidate.Carries : Candidate → Reply → WorkOrderResult → Prop
  | .capability candidate => CapabilityCarries candidate
  | .model executionClass entry => ModelCarries executionClass entry

def modelPathClass : ExecutionClass :=
  if isAiExecutionClass (orderRouting order deps).executionClass then
    (orderRouting order deps).executionClass
  else
    .cloudAi

/-- The candidates that a run calls: capabilities, and then models. -/
def calledCandidates (capabilities : List RegisteredCapability) (models : List ModelEntry) :
    List Candidate :=
  capabilities.map .capability ++ models.map (.model (modelPathClass order deps))

/-- The discipline of a run that calls `capabilities` and then `models`. -/
structure AttemptDiscipline (capabilities : List RegisteredCapability) (models : List ModelEntry)
    (outcome : Except Thrown WorkOrderResult) (actions : List Action) : Prop where
  called : (calls actions).map Prod.fst =
    (calledCandidates order deps capabilities models).map Candidate.ref
  capabilityPrefix : capabilities <+: wiredCapabilities order deps
  modelPrefix : models <+: wiredModels platform order deps
  /-- Capabilities are called only when the routed class is neither AI nor human. -/
  capabilityClass : capabilities ≠ [] →
    (orderRouting order deps).executionClass ≠ .human ∧
      isAiExecutionClass (orderRouting order deps).executionClass = false
  /-- Models are called only when the routed class is AI, or in escalation. -/
  modelClass : models ≠ [] →
    isAiExecutionClass (orderRouting order deps).executionClass = true ∨
      order.needsReasoning = some true ∧ capabilities ≠ [] ∧
        capabilities = wiredCapabilities order deps ∧
        ∀ call ∈ (calls actions).take capabilities.length, FailedRetryably deps call
  retried : ∀ call ∈ (calls actions).dropLast, FailedRetryably deps call
  permitted : calls actions ≠ [] → PolicyAllows platform order
  guarded : Guarded platform order deps actions
  stops : StopsWhenRefused platform order outcome actions
  completes : (∃ result, outcome = .ok result ∧ result.status = .completed) ↔
    ∃ adapter reply, (calls actions).getLast? = some (adapter, .ok reply)
  carries : ∀ result, outcome = .ok result → result.status = .completed →
    ∃ candidate reply, (calledCandidates order deps capabilities models).getLast? = some candidate ∧
      (calls actions).getLast? = some (candidate.ref, .ok reply) ∧
      candidate.Carries reply result

/-! ### The shape of a run -/

def Unrefused (actions : List Action) : Prop :=
  ∀ adapter est, .estimated adapter (.ok est) ∈ actions → ¬ Refused platform order est

/-- A run after its prelude, by the candidates that it calls. -/
inductive Course : List Candidate → Except Thrown WorkOrderResult → List Action → Prop
  | stopped {tried : List Candidate} {outcome : Except Thrown WorkOrderResult}
      {attempts last : List Action}
      (before : FellThrough platform order deps (tried.map Candidate.ref) attempts)
      (calm : calls last = [])
      (stops : StopsWhenRefused platform order outcome last)
      (unfinished : ∀ result, outcome = .ok result → result.status ≠ .completed) :
      Course tried outcome (attempts ++ last)
  | failed {tried : List Candidate} {candidate : Candidate} {error : Thrown}
      {result : WorkOrderResult} {outcome : Except Thrown WorkOrderResult}
      {attempts last closing : List Action}
      (before : FellThrough platform order deps (tried.map Candidate.ref) attempts)
      (failed : Failed platform order deps candidate.ref error last)
      (unfinished : result.status ≠ .completed)
      (closes : Closes order deps .taskFailed result outcome closing) :
      Course (tried ++ [candidate]) outcome (attempts ++ (last ++ closing))
  | completed {tried : List Candidate} {candidate : Candidate} {reply : Reply}
      {result : WorkOrderResult} {attempts last : List Action}
      (before : FellThrough platform order deps (tried.map Candidate.ref) attempts)
      (succeeded : Succeeded platform order deps candidate.ref reply last)
      (carries : candidate.Carries reply result) :
      Course (tried ++ [candidate]) (.ok result) (attempts ++ last)

end Discipline

section Pieces

variable {platform : Platform} {order : WorkOrder} {deps : OrchestratorDeps}
  {outcome : Except Thrown WorkOrderResult} {actions more : List Action} {adapter : AdapterRef}

theorem Quiet.calls_eq (quiet : Quiet actions) : calls actions = [] := by
  refine List.filterMap_eq_nil_iff.mpr fun action present => ?_
  obtain ⟨event, reply, rfl⟩ := quiet action present
  rfl

theorem Quiet.unrefused (quiet : Quiet actions) : Unrefused platform order actions := by
  intro adapter est present
  obtain ⟨event, reply, h⟩ := quiet _ present
  cases h

theorem Emits.quiet {type : EventType} {reply : Except Thrown Unit}
    (emits : Emits order deps type reply actions) : Quiet actions := by
  cases emits
  simp [Quiet]

theorem Closes.quiet {type : EventType} {result : WorkOrderResult}
    (closes : Closes order deps type result outcome actions) : Quiet actions := by
  cases closes with
  | returned emits => exact emits.quiet
  | threw emits => exact emits.quiet

theorem Closes.result_eq {type : EventType} {result given : WorkOrderResult}
    (closes : Closes order deps type given outcome actions) (returned : outcome = .ok result) :
    result = given := by
  cases closes with
  | returned => exact (Except.ok.inj returned).symm
  | threw => cases returned

theorem Emits.accepted {type : EventType} (emits : Emits order deps type (.ok ()) actions) :
    ∃ event, event.type = type ∧ actions = [.published event (.ok ())] := by
  generalize hReply : (Except.ok () : Except Thrown Unit) = reply at emits
  obtain ⟨history, fresh⟩ := emits
  rw [← hReply]
  exact ⟨order.event fresh type, rfl, rfl⟩

theorem EventBus.Resolves.emits_ok (publishes : deps.bus.Resolves) {type : EventType}
    {reply : Except Thrown Unit} (emits : Emits order deps type reply actions) :
    reply = .ok () := by
  cases emits
  exact publishes _ _

theorem EventBus.Resolves.closes_ok (publishes : deps.bus.Resolves) {type : EventType}
    {result : WorkOrderResult} (closes : Closes order deps type result outcome actions) :
    outcome = .ok result := by
  cases closes with
  | returned => rfl
  | threw emits => cases publishes.emits_ok emits

theorem Cleared.calls_eq (cleared : Cleared platform order deps adapter actions) :
    calls actions = [] := by
  cases cleared <;> rfl

theorem Cleared.unrefused (cleared : Cleared platform order deps adapter actions) :
    Unrefused platform order actions := by
  intro adapter' est' present refused
  obtain ⟨gate', check', present', checked', refused'⟩ := refused
  cases cleared with
  | unbudgeted => simp at present
  | within hGate estimates checked allowed =>
    obtain ⟨rfl, rfl⟩ : adapter' = adapter ∧ _ := by simpa using present
    rw [hGate] at present'
    cases present'
    rw [checked] at checked'
    cases checked'
    rw [allowed] at refused'
    cases refused'

theorem Started.calls_eq (started : Started platform order deps adapter actions) :
    calls actions = [] := by
  obtain ⟨cleared, worker, tool⟩ := started
  simp [cleared.calls_eq, worker.quiet.calls_eq, tool.quiet.calls_eq]

theorem Unrefused.append (left : Unrefused platform order actions)
    (right : Unrefused platform order more) : Unrefused platform order (actions ++ more) := by
  intro adapter est present
  rcases List.mem_append.mp present with h | h
  · exact left adapter est h
  · exact right adapter est h

theorem Started.unrefused (started : Started platform order deps adapter actions) :
    Unrefused platform order actions := by
  obtain ⟨cleared, worker, tool⟩ := started
  exact (cleared.unrefused.append worker.quiet.unrefused).append tool.quiet.unrefused

/-- Where the bus resolves, an attempt fails only by a rejected call. -/
theorem Failed.rejected_call (publishes : deps.bus.Resolves) {error : Thrown}
    (failed : Failed platform order deps adapter error actions) :
    ∃ start, Started platform order deps adapter start ∧
      actions = start ++ [.executed adapter (.error error)] := by
  cases failed with
  | rejected started => exact ⟨_, started, rfl⟩
  | unannounced reply entry started completed => cases publishes.emits_ok completed

theorem Failed.calls_eq (publishes : deps.bus.Resolves) {error : Thrown}
    (failed : Failed platform order deps adapter error actions) :
    calls actions = [(adapter, .error error)] := by
  obtain ⟨start, started, rfl⟩ := failed.rejected_call publishes
  simp [started.calls_eq]

theorem Failed.unrefused (publishes : deps.bus.Resolves) {error : Thrown}
    (failed : Failed platform order deps adapter error actions) :
    Unrefused platform order actions := by
  obtain ⟨start, started, rfl⟩ := failed.rejected_call publishes
  exact started.unrefused.append (by simp [Unrefused])

theorem Succeeded.calls_eq {reply : Reply}
    (succeeded : Succeeded platform order deps adapter reply actions) :
    calls actions = [(adapter, .ok reply)] := by
  obtain ⟨entry, started, completed⟩ := succeeded
  simp [started.calls_eq, completed.quiet.calls_eq]

theorem Succeeded.unrefused {reply : Reply}
    (succeeded : Succeeded platform order deps adapter reply actions) :
    Unrefused platform order actions := by
  obtain ⟨entry, started, completed⟩ := succeeded
  exact (started.unrefused.append (by simp [Unrefused])).append completed.quiet.unrefused

/-! ### The guard -/

theorem Guarded.append (left : Guarded platform order deps actions)
    (right : Guarded platform order deps more) :
    Guarded platform order deps (actions ++ more) := by
  intro before adapter reply after split gate present
  rcases split_append split with ⟨middle, hLeft, -⟩ | ⟨middle, rfl, hRight⟩
  · exact left before adapter reply middle hLeft gate present
  · obtain ⟨earlier, est, check, started, called, rfl, guard⟩ :=
      right middle adapter reply after hRight gate present
    exact ⟨actions ++ earlier, est, check, started, called, by simp, guard⟩

theorem guarded_of_calls_eq (none : calls actions = []) : Guarded platform order deps actions := by
  rintro before adapter reply after rfl
  simp at none

theorem Started.guarded (started : Started platform order deps adapter actions)
    (reply : Except Thrown Reply) :
    Guarded platform order deps (actions ++ [.executed adapter reply]) := by
  intro before adapter' reply' after split gate present
  have none := started.calls_eq
  rcases split_append split with ⟨middle, rfl, -⟩ | ⟨middle, rfl, hRight⟩
  · simp at none
  obtain ⟨rfl, rfl⟩ : middle = [] ∧ adapter = adapter' := by
    rcases middle with _ | ⟨first, middle⟩
    · simp at hRight
      exact ⟨rfl, hRight.1.1⟩
    · simp at hRight
  obtain ⟨cleared, worker, tool⟩ := started
  obtain ⟨workerEvent, hWorker, rfl⟩ := worker.accepted
  obtain ⟨toolEvent, hTool, rfl⟩ := tool.accepted
  cases cleared with
  | unbudgeted absent => simp [absent] at present
  | within hGate estimates checked allowed =>
    rw [hGate] at present
    cases present
    exact ⟨[], _, _, workerEvent, toolEvent, by simp, estimates, checked, allowed, hWorker, hTool⟩

theorem Failed.guarded (publishes : deps.bus.Resolves) {error : Thrown}
    (failed : Failed platform order deps adapter error actions) :
    Guarded platform order deps actions := by
  obtain ⟨start, started, rfl⟩ := failed.rejected_call publishes
  exact started.guarded _

theorem Succeeded.guarded {reply : Reply}
    (succeeded : Succeeded platform order deps adapter reply actions) :
    Guarded platform order deps actions := by
  obtain ⟨entry, started, completed⟩ := succeeded
  have tail : calls (.recorded entry :: _) = [] := completed.quiet.calls_eq
  simpa using (started.guarded (.ok reply)).append (guarded_of_calls_eq tail)

/-! ### Refusals -/

theorem Unrefused.stops_append (left : Unrefused platform order actions)
    (right : StopsWhenRefused platform order outcome more) :
    StopsWhenRefused platform order outcome (actions ++ more) := by
  intro before adapter est after split refused
  rcases split_append split with ⟨middle, hLeft, -⟩ | ⟨middle, rfl, hRight⟩
  · exact absurd refused (left adapter est (by simp [hLeft]))
  · exact right middle adapter est after hRight refused

theorem Unrefused.stops (none : Unrefused platform order actions) :
    StopsWhenRefused platform order outcome actions := by
  rintro before adapter est after rfl refused
  exact absurd refused (none adapter est (by simp))

theorem OverBudget.calls_eq (refusal : OverBudget platform order deps adapter actions) :
    calls actions = [] := by
  cases refusal
  rfl

theorem OverBudget.stops (refusal : OverBudget platform order deps adapter actions)
    (quiet : Quiet more)
    {result : WorkOrderResult} (status : result.status = .budgetExceeded) :
    StopsWhenRefused platform order (.ok result) (actions ++ more) := by
  obtain ⟨present, estimates, checked, refused⟩ := refusal
  intro before adapter' est after split _
  rcases split_append split with ⟨middle, hLeft, rfl⟩ | ⟨middle, -, hRight⟩
  · obtain ⟨rfl, -, rfl⟩ : before = [] ∧ _ ∧ middle = [] := by
      rcases before with _ | ⟨first, before⟩
      · simpa using hLeft
      · simp at hLeft
    exact ⟨quiet, result, rfl, status⟩
  · obtain ⟨event, reply, h⟩ := quiet (.estimated adapter' (.ok est)) (by simp [hRight])
    cases h

theorem Broken.checked (publishes : deps.bus.Resolves) (resolves : deps.EstimatesResolve)
    {error : Thrown} (broken : Broken platform order deps adapter error actions) :
    ∃ gate est reason, order.budget = some gate ∧
      checkOrderBudget platform.realm gate est = .error reason ∧
      actions = [.estimated adapter (.ok est)] := by
  cases broken with
  | estimate present estimates =>
    obtain ⟨est, h⟩ := resolves adapter _ estimates
    cases h
  | budget present estimates checked same => exact ⟨_, _, _, present, checked, rfl⟩
  | worker cleared worker => cases publishes.emits_ok worker
  | tool cleared worker tool => cases publishes.emits_ok tool

theorem Broken.calls_eq (publishes : deps.bus.Resolves) (resolves : deps.EstimatesResolve)
    {error : Thrown} (broken : Broken platform order deps adapter error actions) :
    calls actions = [] := by
  obtain ⟨gate, est, reason, -, -, rfl⟩ := broken.checked publishes resolves
  rfl

theorem Broken.unrefused (publishes : deps.bus.Resolves) (resolves : deps.EstimatesResolve)
    {error : Thrown} (broken : Broken platform order deps adapter error actions) :
    Unrefused platform order actions := by
  obtain ⟨gate, est, reason, present, checked, rfl⟩ := broken.checked publishes resolves
  rintro adapter' est' hMem ⟨gate', check, present', checked', -⟩
  obtain ⟨rfl, rfl⟩ : adapter' = adapter ∧ est' = est := by simpa using hMem
  rw [present] at present'
  cases present'
  rw [checked] at checked'
  cases checked'

/-! ### Attempts that fell through -/

theorem FellThrough.append {left right : List AdapterRef}
    (before : FellThrough platform order deps left actions)
    (after : FellThrough platform order deps right more) :
    FellThrough platform order deps (left ++ right) (actions ++ more) := by
  induction after with
  | none => simpa using before
  | more _ failed retryable ih => simpa using ih.more failed retryable

theorem FellThrough.calls_eq (publishes : deps.bus.Resolves) {tried : List AdapterRef}
    (fell : FellThrough platform order deps tried actions) :
    (calls actions).map Prod.fst = tried ∧ ∀ call ∈ calls actions, FailedRetryably deps call := by
  induction fell with
  | none => simp
  | more _ failed retryable ih =>
    obtain ⟨hTried, hAll⟩ := ih
    rw [calls_append, failed.calls_eq publishes]
    refine ⟨by simp [hTried], ?_⟩
    intro call present
    rcases List.mem_append.mp present with h | h
    · exact hAll call h
    · obtain rfl := List.mem_singleton.mp h
      exact ⟨_, rfl, retryable⟩

theorem FellThrough.guarded (publishes : deps.bus.Resolves) {tried : List AdapterRef}
    (fell : FellThrough platform order deps tried actions) :
    Guarded platform order deps actions := by
  induction fell with
  | none => exact guarded_of_calls_eq rfl
  | more _ failed _ ih => exact ih.append (failed.guarded publishes)

theorem FellThrough.unrefused (publishes : deps.bus.Resolves) {tried : List AdapterRef}
    (fell : FellThrough platform order deps tried actions) :
    Unrefused platform order actions := by
  induction fell with
  | none => simp [Unrefused]
  | more _ failed _ ih => exact ih.append (failed.unrefused publishes)

/-! ### Every run has a course -/

theorem Settles.course (publishes : deps.bus.Resolves) (resolves : deps.EstimatesResolve)
    {tried : List Candidate} (candidate : Candidate) {overBudget failed : WorkOrderResult}
    (before : FellThrough platform order deps (tried.map Candidate.ref) actions)
    (settles : Settles platform order deps candidate.ref overBudget failed candidate.Carries
      outcome more)
    (hOver : overBudget.status = .budgetExceeded) (hFailed : failed.status = .failed) :
    Course platform order deps tried outcome (actions ++ more) ∨
      Course platform order deps (tried ++ [candidate]) outcome (actions ++ more) := by
  cases settles with
  | broken attempt =>
    exact .inl (.stopped before (attempt.calls_eq publishes resolves)
      (attempt.unrefused publishes resolves).stops (by simp))
  | overBudget attempt closes =>
    obtain rfl := publishes.closes_ok closes
    refine .inl (.stopped before ?_ (attempt.stops closes.quiet hOver) (by simp [hOver]))
    rw [calls_append, attempt.calls_eq, closes.quiet.calls_eq, List.append_nil]
  | completed attempt carries => exact .inr (.completed before attempt carries)
  | failed attempt final closes => exact .inr (.failed before attempt (by simp [hFailed]) closes)

theorem Closes.course {tried : List Candidate} {type : EventType} {result : WorkOrderResult}
    (before : FellThrough platform order deps (tried.map Candidate.ref) actions)
    (closes : Closes order deps type result outcome more) (status : result.status ≠ .completed) :
    Course platform order deps tried outcome (actions ++ more) := by
  refine .stopped before closes.quiet.calls_eq closes.quiet.unrefused.stops ?_
  rintro result' rfl
  cases closes
  exact status

theorem ModelRun.course (publishes : deps.bus.Resolves) (resolves : deps.EstimatesResolve)
    {capabilities : List RegisteredCapability}
    (before : FellThrough platform order deps (capabilities.map (·.ref)) actions)
    (run : ModelRun platform order deps (modelPathClass order deps) outcome more) :
    ∃ models, models <+: wiredModels platform order deps ∧
      Course platform order deps (calledCandidates order deps capabilities models) outcome
        (actions ++ more) := by
  have start : FellThrough platform order deps
      ((calledCandidates order deps capabilities []).map Candidate.ref) actions := by
    simpa [calledCandidates, Candidate.ref, Function.comp_def] using before
  -- The attempts of both loops so far.
  have both : ∀ {models : List ModelEntry} {more : List Action},
      FellThrough platform order deps (models.map (·.ref)) more →
        FellThrough platform order deps
          ((calledCandidates order deps capabilities models).map Candidate.ref)
          (actions ++ more) := by
    intro models more after
    simpa [calledCandidates, Candidate.ref, Function.comp_def] using before.append after
  cases run with
  | missingRequest absent closes =>
    exact ⟨[], List.nil_prefix, closes.course start (by simp [modelFailed])⟩
  | noEligible unmatched closes =>
    exact ⟨[], List.nil_prefix, closes.course start (by simp [modelFailed])⟩
  | exhausted after unwired closes =>
    refine ⟨_, List.prefix_rfl, ?_⟩
    rw [← List.append_assoc]
    exact closes.course (both after) (by simp [modelFailed])
  | @settled tried rest entry _ _ _ requested split after settles =>
    have course := settles.course publishes resolves (.model (modelPathClass order deps) entry)
      (both after) rfl rfl
    rw [List.append_assoc] at course
    rcases course with course | course
    · exact ⟨tried, ⟨_, split.symm⟩, course⟩
    · refine ⟨tried ++ [entry], ⟨rest, by simp [split]⟩, ?_⟩
      simpa [calledCandidates] using course

/-- The capability path goes on to models only once every wired capability has failed. -/
theorem CapabilityRun.course (publishes : deps.bus.Resolves) (resolves : deps.EstimatesResolve)
    (machine : isAiExecutionClass (orderRouting order deps).executionClass = false)
    {routing : WorkRoutingDecision}
    (run : CapabilityRun platform order deps routing outcome actions) :
    ∃ capabilities models, capabilities <+: wiredCapabilities order deps ∧
      models <+: wiredModels platform order deps ∧
      (models ≠ [] → order.needsReasoning = some true ∧ capabilities ≠ [] ∧
        capabilities = wiredCapabilities order deps) ∧
      Course platform order deps (calledCandidates order deps capabilities models) outcome
        actions := by
  have alone : ∀ capabilities, calledCandidates order deps capabilities [] =
      capabilities.map .capability := by simp [calledCandidates]
  -- Attempts of the capability loop, by candidates.
  have start : ∀ {capabilities : List RegisteredCapability} {actions : List Action},
      FellThrough platform order deps (capabilities.map (·.ref)) actions →
        FellThrough platform order deps
          ((capabilities.map Candidate.capability).map Candidate.ref) actions := by
    intro capabilities actions before
    simpa [Candidate.ref, Function.comp_def] using before
  cases run with
  | @settled tried rest candidate _ _ _ split before settles =>
    have course := settles.course publishes resolves (.capability candidate) (start before) rfl rfl
    rcases course with course | course
    · exact ⟨tried, [], ⟨_, split.symm⟩, List.nil_prefix, by simp, by rwa [alone]⟩
    · refine ⟨tried ++ [candidate], [], ⟨rest, by simp [split]⟩, List.nil_prefix, by simp, ?_⟩
      rw [alone, List.map_append]
      exact course
  | unwired absent closes =>
    refine ⟨[], [], List.nil_prefix, List.nil_prefix, by simp, ?_⟩
    have untried : FellThrough platform order deps (([] : List Candidate).map Candidate.ref) [] :=
      .none
    exact closes.course untried (by simp [capabilityUnwired])
  | exhausted wired before unreasoned closes =>
    refine ⟨_, [], List.prefix_rfl, List.nil_prefix, by simp, ?_⟩
    rw [alone]
    exact closes.course (start before) (by simp [capabilityExhausted])
  | escalated wired before reasoned model =>
    have cls : modelPathClass order deps = .cloudAi := by simp [modelPathClass, machine]
    rw [← cls] at model
    obtain ⟨models, hPrefix, course⟩ := model.course publishes resolves before
    exact ⟨_, models, List.prefix_rfl, hPrefix, fun _ => ⟨reasoned, wired, rfl⟩, course⟩

/-! ### What a course says of its run -/

variable {tried : List Candidate}

theorem Course.called (publishes : deps.bus.Resolves)
    (course : Course platform order deps tried outcome actions) :
    (calls actions).map Prod.fst = tried.map Candidate.ref := by
  cases course with
  | stopped before calm =>
    rw [calls_append, calm, List.append_nil]
    exact (before.calls_eq publishes).1
  | failed before failed unfinished closes =>
    simp [(before.calls_eq publishes).1, failed.calls_eq publishes, closes.quiet.calls_eq]
  | completed before succeeded => simp [(before.calls_eq publishes).1, succeeded.calls_eq]

theorem Course.retried (publishes : deps.bus.Resolves)
    (course : Course platform order deps tried outcome actions) :
    ∀ call ∈ (calls actions).dropLast, FailedRetryably deps call := by
  cases course with
  | stopped before calm =>
    intro call present
    rw [calls_append, calm, List.append_nil] at present
    exact (before.calls_eq publishes).2 call (List.dropLast_subset _ present)
  | failed before failed unfinished closes =>
    rw [calls_append, calls_append, failed.calls_eq publishes, closes.quiet.calls_eq,
      List.append_nil, List.dropLast_concat]
    exact (before.calls_eq publishes).2
  | completed before succeeded =>
    rw [calls_append, succeeded.calls_eq, List.dropLast_concat]
    exact (before.calls_eq publishes).2

theorem Course.guarded (publishes : deps.bus.Resolves)
    (course : Course platform order deps tried outcome actions) :
    Guarded platform order deps actions := by
  cases course with
  | stopped before calm => exact (before.guarded publishes).append (guarded_of_calls_eq calm)
  | failed before failed unfinished closes =>
    exact (before.guarded publishes).append
      ((failed.guarded publishes).append (guarded_of_calls_eq closes.quiet.calls_eq))
  | completed before succeeded => exact (before.guarded publishes).append succeeded.guarded

theorem Course.stops (publishes : deps.bus.Resolves)
    (course : Course platform order deps tried outcome actions) :
    StopsWhenRefused platform order outcome actions := by
  cases course with
  | stopped before calm stops => exact (before.unrefused publishes).stops_append stops
  | failed before failed unfinished closes =>
    exact ((before.unrefused publishes).append
      ((failed.unrefused publishes).append closes.quiet.unrefused)).stops
  | completed before succeeded =>
    exact ((before.unrefused publishes).append succeeded.unrefused).stops

theorem unresolved_of_retried (failed : ∀ call ∈ calls actions, FailedRetryably deps call) :
    ¬ ∃ adapter reply, (calls actions).getLast? = some (adapter, .ok reply) := by
  rintro ⟨adapter, reply, last⟩
  obtain ⟨error, rejected, -⟩ := failed _ (List.mem_of_getLast? last)
  cases rejected

theorem Candidate.Carries.status {candidate : Candidate} {reply : Reply} {result : WorkOrderResult}
    (carries : candidate.Carries reply result) : result.status = .completed := by
  cases candidate with
  | capability candidate =>
    obtain ⟨output, -, rfl⟩ := carries
    rfl
  | model executionClass entry =>
    obtain ⟨given, -, rfl⟩ := carries
    rfl

theorem Course.completes (publishes : deps.bus.Resolves)
    (course : Course platform order deps tried outcome actions) :
    (∃ result, outcome = .ok result ∧ result.status = .completed) ↔
      ∃ adapter reply, (calls actions).getLast? = some (adapter, .ok reply) := by
  cases course with
  | stopped before calm stops unfinished =>
    rw [calls_append, calm, List.append_nil]
    have unresolved := unresolved_of_retried (before.calls_eq publishes).2
    refine iff_of_false ?_ unresolved
    rintro ⟨result, hResult, status⟩
    exact unfinished result hResult status
  | failed before failed unfinished closes =>
    obtain rfl := publishes.closes_ok closes
    refine iff_of_false (by simpa using unfinished) ?_
    simp [failed.calls_eq publishes, closes.quiet.calls_eq]
  | completed before succeeded carries =>
    refine iff_of_true ⟨_, rfl, carries.status⟩ ?_
    simp [succeeded.calls_eq]

theorem Course.carries (publishes : deps.bus.Resolves)
    (course : Course platform order deps tried outcome actions) {result : WorkOrderResult}
    (returned : outcome = .ok result) (status : result.status = .completed) :
    ∃ candidate reply, tried.getLast? = some candidate ∧
      (calls actions).getLast? = some (candidate.ref, .ok reply) ∧
      candidate.Carries reply result := by
  cases course with
  | stopped before calm stops unfinished => exact absurd status (unfinished result returned)
  | failed before failed unfinished closes =>
    rw [publishes.closes_ok closes] at returned
    cases returned
    exact absurd status unfinished
  | @completed _ candidate reply _ _ _ before succeeded carries =>
    cases returned
    exact ⟨candidate, reply, by simp, by simp [succeeded.calls_eq], carries⟩

theorem Course.discipline (publishes : deps.bus.Resolves)
    {capabilities : List RegisteredCapability} {models : List ModelEntry} (quiet : Quiet actions)
    (course : Course platform order deps (calledCandidates order deps capabilities models) outcome
      more)
    (hCapabilities : capabilities <+: wiredCapabilities order deps)
    (hModels : models <+: wiredModels platform order deps)
    (capabilityClass : capabilities ≠ [] → (orderRouting order deps).executionClass ≠ .human ∧
      isAiExecutionClass (orderRouting order deps).executionClass = false)
    (modelClass : models ≠ [] → isAiExecutionClass (orderRouting order deps).executionClass = true ∨
      order.needsReasoning = some true ∧ capabilities ≠ [] ∧
        capabilities = wiredCapabilities order deps)
    (permitted : calls more ≠ [] → PolicyAllows platform order) :
    AttemptDiscipline platform order deps capabilities models outcome (actions ++ more) := by
  have whole : calls (actions ++ more) = calls more := by simp [quiet.calls_eq]
  refine {
    called := whole ▸ course.called publishes
    capabilityPrefix := hCapabilities
    modelPrefix := hModels
    capabilityClass := capabilityClass
    modelClass := ?_
    retried := whole ▸ course.retried publishes
    permitted := whole ▸ permitted
    guarded := (guarded_of_calls_eq quiet.calls_eq).append (course.guarded publishes)
    stops := quiet.unrefused.stops_append (course.stops publishes)
    completes := whole ▸ course.completes publishes
    carries := fun result returned status => whole ▸ course.carries publishes returned status }
  intro present
  refine (modelClass present).imp_right ?_
  rintro ⟨reasoned, wired, all⟩
  refine ⟨reasoned, wired, all, ?_⟩
  rw [whole]
  -- The capability calls come before the last call, which is a model's.
  have count : (calls more).length = capabilities.length + models.length := by
    simpa [calledCandidates] using congrArg List.length (course.called publishes)
  have later := List.length_pos_iff.mpr present
  intro call hCall
  apply course.retried publishes call
  rw [List.dropLast_eq_take]
  exact List.take_subset_take_left _ (by omega) hCall

theorem RouteRun.discipline (publishes : deps.bus.Resolves) (resolves : deps.EstimatesResolve)
    (allowed : PolicyAllows platform order)
    (run : RouteRun platform order deps outcome actions) :
    ∃ capabilities models,
      AttemptDiscipline platform order deps capabilities models outcome actions := by
  have untried : FellThrough platform order deps (([] : List Candidate).map Candidate.ref) [] :=
    .none
  cases run with
  | unplanned planned => cases publishes.emits_ok planned
  | human planned routed closes =>
    have course : Course platform order deps (calledCandidates order deps [] []) _ _ :=
      closes.course untried (by simp [awaitingHuman])
    exact ⟨[], [], course.discipline publishes planned.quiet List.nil_prefix List.nil_prefix
      (by simp) (by simp) fun _ => allowed⟩
  | capability planned machine routed run =>
    obtain ⟨capabilities, models, hCapabilities, hModels, escalated, course⟩ :=
      run.course publishes resolves routed
    exact ⟨capabilities, models, course.discipline publishes planned.quiet hCapabilities hModels
      (fun _ => ⟨machine, routed⟩) (fun present => .inr (escalated present)) fun _ => allowed⟩
  | model planned routed run =>
    have cls : modelPathClass order deps = (orderRouting order deps).executionClass := by
      simp [modelPathClass, routed]
    rw [← cls] at run
    have before : FellThrough platform order deps
        (([] : List RegisteredCapability).map (·.ref)) [] := .none
    obtain ⟨models, hModels, course⟩ := run.course publishes resolves before
    exact ⟨[], models, course.discipline publishes planned.quiet List.nil_prefix hModels
      (by simp) (fun _ => .inl routed) fun _ => allowed⟩

theorem OrderRun.discipline (publishes : deps.bus.Resolves) (resolves : deps.EstimatesResolve)
    (run : OrderRun platform order deps outcome actions) :
    ∃ capabilities models,
      AttemptDiscipline platform order deps capabilities models outcome actions := by
  have untried : FellThrough platform order deps (([] : List Candidate).map Candidate.ref) [] :=
    .none
  have silent : Quiet [] := by simp [Quiet]
  -- A run that ends at the policy gate makes no call.
  have gated : ∀ {actions : List Action}, Quiet actions →
      (∀ result, outcome = .ok result → result.status ≠ .completed) →
      ∃ capabilities models,
        AttemptDiscipline platform order deps capabilities models outcome actions := by
    intro actions quiet unfinished
    have course : Course platform order deps (calledCandidates order deps [] []) outcome actions :=
      .stopped untried quiet.calls_eq quiet.unrefused.stops unfinished
    exact ⟨[], [], course.discipline publishes silent List.nil_prefix List.nil_prefix (by simp)
      (by simp) fun called => absurd quiet.calls_eq called⟩
  cases run with
  | broken present evaluated => exact gated silent (by simp)
  | denied present evaluated effect closes =>
    obtain rfl := publishes.closes_ok closes
    exact gated closes.quiet (by simp [policyDenied])
  | approval present evaluated effect closes =>
    obtain rfl := publishes.closes_ok closes
    exact gated closes.quiet (by simp [policyApproval])
  | routed allowed run => exact run.discipline publishes resolves allowed

/-! ### Well-typed orders -/

theorem WorkOrder.WellTyped.checks (typed : order.WellTyped) {gate : JsValue}
    (present : order.budget = some gate) (realm : Realm) (est : CostEstimate) :
    ∃ check, checkOrderBudget realm gate est = .ok check := by
  obtain ⟨budget, spentUsd, rfl⟩ := typed.budget gate present
  refine ⟨_, Eq.trans ?_ (checkBudget_toJs realm budget spentUsd est.costUsd)⟩
  simp [checkOrderBudget, budgetGateToJs]

theorem Settles.returns (typed : order.WellTyped) (publishes : deps.bus.Resolves)
    (resolves : deps.EstimatesResolve) {overBudget failed : WorkOrderResult}
    {completed : Reply → WorkOrderResult → Prop}
    (settles : Settles platform order deps adapter overBudget failed completed outcome actions) :
    ∃ result, outcome = .ok result := by
  cases settles with
  | broken attempt =>
    obtain ⟨gate, est, reason, present, checked, -⟩ := attempt.checked publishes resolves
    obtain ⟨check, h⟩ := typed.checks present platform.realm est
    rw [checked] at h
    cases h
  | overBudget attempt closes => exact ⟨_, publishes.closes_ok closes⟩
  | completed attempt carries => exact ⟨_, rfl⟩
  | failed attempt final closes => exact ⟨_, publishes.closes_ok closes⟩

theorem ModelRun.returns (typed : order.WellTyped) (publishes : deps.bus.Resolves)
    (resolves : deps.EstimatesResolve) {executionClass : ExecutionClass}
    (run : ModelRun platform order deps executionClass outcome actions) :
    ∃ result, outcome = .ok result := by
  cases run with
  | settled requested split before settles => exact settles.returns typed publishes resolves
  | missingRequest _ closes | noEligible _ closes | exhausted _ _ closes =>
    exact ⟨_, publishes.closes_ok closes⟩

theorem CapabilityRun.returns (typed : order.WellTyped) (publishes : deps.bus.Resolves)
    (resolves : deps.EstimatesResolve) {routing : WorkRoutingDecision}
    (run : CapabilityRun platform order deps routing outcome actions) :
    ∃ result, outcome = .ok result := by
  cases run with
  | settled split before settles => exact settles.returns typed publishes resolves
  | unwired _ closes | exhausted _ _ _ closes => exact ⟨_, publishes.closes_ok closes⟩
  | escalated wired before reasoned model => exact model.returns typed publishes resolves

theorem OrderRun.returns (typed : order.WellTyped) (publishes : deps.bus.Resolves)
    (resolves : deps.EstimatesResolve) (run : OrderRun platform order deps outcome actions) :
    ∃ result, outcome = .ok result := by
  cases run with
  | broken present evaluated =>
    obtain ⟨input, rfl⟩ := typed.policy _ present
    rw [evaluate_toJs] at evaluated
    cases evaluated
  | denied _ _ _ closes | approval _ _ _ closes => exact ⟨_, publishes.closes_ok closes⟩
  | routed allowed run =>
    cases run with
    | unplanned planned => cases publishes.emits_ok planned
    | human planned routed closes => exact ⟨_, publishes.closes_ok closes⟩
    | capability planned machine routed run => exact run.returns typed publishes resolves
    | model planned routed run => exact run.returns typed publishes resolves

end Pieces

/-- The attempt discipline of the orchestrator: a run of a well-typed order returns, and every run
calls a prefix of the wired capabilities and then a prefix of the wired models under the rules of
`AttemptDiscipline`. -/
theorem executeWorkOrder_attemptDiscipline (platform : Platform) (order : WorkOrder)
    (deps : OrchestratorDeps) (publishes : deps.bus.Resolves) (resolves : deps.EstimatesResolve)
    (history : History) :
    wp (executeWorkOrder platform order deps) history fun outcome actions =>
      (order.WellTyped → ∃ result, outcome = .ok result) ∧
        ∃ capabilities models,
          AttemptDiscipline platform order deps capabilities models outcome actions := by
  refine wp_mono executeWorkOrder_run fun outcome actions run => ?_
  exact ⟨fun typed => run.returns typed publishes resolves, run.discipline publishes resolves⟩

/-- A platform for examples, whose ids are numbered by the history. -/
def Platform.plain : Platform where
  realm := .plain
  fresh history := {
    eventId := "event-" ++ toString history.length
    correlationId := "correlation-" ++ toString history.length
    now := history.length }

/-- A wired adapter that always gives the same estimate and the same reply. -/
def CapabilityAdapter.constant (reply : Except Thrown JsValue) (errorClass : ErrorClass) :
    CapabilityAdapter where
  estimate _ _ _ := .ok { costUsd := 1, latencyMs := 10, confidence := 1 }
  execute _ _ _ := reply
  reportUsage _ := none
  classifyError _ := errorClass

/-- Two healthy providers of `crm.update`, an API before a browser that always succeeds. -/
def crmDeps (bus : EventBus) (api : CapabilityAdapter) : OrchestratorDeps where
  bus := bus
  workRegistry := { items := [
    { id := "crm-api", executionClass := .deterministic, provides := ["crm.update"],
      health := .healthy },
    { id := "crm-browser", executionClass := .browser, provides := ["crm.update"],
      health := .healthy }] }
  modelRegistry := []
  resolveModelAdapter _ := none
  resolveCapabilityAdapter := some fun id =>
    if id = "crm-api" then some api else some (.constant (.ok (.string "updated")) .unknown)

theorem crmDeps_estimatesResolve (bus : EventBus) (reply : Except Thrown JsValue)
    (errorClass : ErrorClass) :
    (crmDeps bus (.constant reply errorClass)).EstimatesResolve := by
  intro adapter answer estimates
  cases estimates with
  | capability wired =>
    simp only [OrchestratorDeps.capabilityAdapter, crmDeps, Option.bind_some] at wired
    split at wired <;> cases wired <;> exact ⟨_, rfl⟩
  | model wired => cases wired

/-- An order for `crm.update` with a budget of five dollars. -/
def crmOrder : WorkOrder where
  organizationId := "acme"
  taskId := some "task-1"
  requiredCapabilities := ["crm.update"]
  budget := some (budgetGateToJs { scope := "task", scopeRef := "task-1", limitUsd := 5 } 0)

/-- The API is down, so the run goes on to the browser. -/
def crmFallbackDeps : OrchestratorDeps :=
  crmDeps BufferingEventBus (.constant (.error (.value (.string "down"))) .unavailable)

theorem executeWorkOrder_attemptDiscipline_crm :
    wp (executeWorkOrder .plain crmOrder crmFallbackDeps) [] fun outcome actions =>
      (crmOrder.WellTyped → ∃ result, outcome = .ok result) ∧
        ∃ capabilities models, AttemptDiscipline .plain crmOrder crmFallbackDeps capabilities models
          outcome actions :=
  executeWorkOrder_attemptDiscipline .plain crmOrder crmFallbackDeps
    BufferingEventBus.resolves (crmDeps_estimatesResolve _ _ _) []

end Donna
