import Donna.Orchestrator.Outage

/-! When a run returns.  Policy and budget reach the orchestrator as arbitrary records, and the
estimates are awaited outside any `try`: a run throws at a policy that `evaluate` cannot read, at an
estimate that rejects and at a budget that `checkBudget` cannot read. -/

namespace Donna

open Js Async Async.Program

section Definitions

variable (platform : Platform) (order : WorkOrder) (deps : OrchestratorDeps)

/-- The gate comes to a decision on the order's policy. -/
def PolicyEvaluates : Prop :=
  ∀ policy, order.policy = some policy → ∃ decision, evaluate platform.realm policy = .ok decision

def wiredModelRefs : List AdapterRef :=
  if order.modelRequest = none then [] else (wiredModels platform order deps).map ModelEntry.ref

/-- The models that a run falls back to when every capability has failed. -/
def escalationRefs : List AdapterRef :=
  if wiredCapabilities order deps ≠ [] ∧ order.needsReasoning = some true then
    wiredModelRefs platform order deps
  else []

/-- The wired adapters in the order in which a run comes to them, as long as each fails
retryably. -/
def attemptOrder : List AdapterRef :=
  if (orderRouting order deps).executionClass = .human then []
  else if isAiExecutionClass (orderRouting order deps).executionClass then
    wiredModelRefs platform order deps
  else
    (wiredCapabilities order deps).map RegisteredCapability.ref ++
      escalationRefs platform order deps

/-- The run does nothing more but announce that the order failed. -/
def ClosesFailed (outcome : Except Thrown WorkOrderResult) (rest : List Action) : Prop :=
  ∃ event result, rest = [.published event (.ok ())] ∧ event.type = .taskFailed ∧
    outcome = .ok result ∧ result.status = .failed

/-- A rejected estimate is handled as a rejected call is: after an error that its adapter classifies
as retryable the run goes on to the next adapter, if there is one, and otherwise the order fails. -/
def HandledAsFailures (outcome : Except Thrown WorkOrderResult) (actions : List Action) : Prop :=
  ∀ before adapter error rest, actions = before ++ .estimated adapter (.error error) :: rest →
    if isRetryable (deps.classifyError adapter error) then
      ∃ tried later, attemptOrder platform order deps = tried ++ adapter :: later ∧
        match later with
        | [] => ClosesFailed outcome rest
        | next :: _ => ∃ reply more, rest = .estimated next reply :: more
    else ClosesFailed outcome rest

/-- The same registries with the same adapters wired, whatever these do. -/
structure OrchestratorDeps.SetUpAs (deps other : OrchestratorDeps) : Prop where
  workRegistry : deps.workRegistry = other.workRegistry
  modelRegistry : deps.modelRegistry = other.modelRegistry
  wired : deps.wired = other.wired

/-- Whatever the wired adapters do, with `offers` for the replies that each may give to `estimate`,
a run returns a result, and treats a rejected estimate as a rejected call. -/
def Withstands (offers : AdapterRef → Set (Except Thrown CostEstimate)) : Prop :=
  ∀ other : OrchestratorDeps, other.SetUpAs deps → other.bus.Resolves →
    (∀ adapter reply, Estimates other adapter reply → reply ∈ offers adapter) →
    ∀ history, wp (executeWorkOrder platform order other) history fun outcome actions =>
      (∃ result, outcome = .ok result) ∧ HandledAsFailures platform order other outcome actions

/-- Adapters that may give estimates that the budget affords. -/
def MayAfford (offers : AdapterRef → Set (Except Thrown CostEstimate)) (tried : List AdapterRef) :
    Prop :=
  ∀ passed ∈ tried, ∃ est, .ok est ∈ offers passed ∧ Affords platform order est

/-- The budget gate comes to a decision on every estimate that a run can be given. -/
def EstimatesAssessable (offers : AdapterRef → Set (Except Thrown CostEstimate)) : Prop :=
  ∀ tried adapter later, attemptOrder platform order deps = tried ++ adapter :: later →
    MayAfford platform order offers tried →
    ∀ reply ∈ offers adapter, Assessable platform order reply

end Definitions

section SetUp

variable {platform : Platform} {order : WorkOrder} {deps other : OrchestratorDeps}

theorem wiredCapabilities_eq :
    wiredCapabilities order deps =
      (candidateCapabilities (workRoutingInput order) deps.workRegistry).filter fun candidate =>
        deps.wired candidate.ref :=
  rfl

theorem wiredModels_eq :
    wiredModels platform order deps =
      (modelChain platform order deps).filter fun entry => deps.wired entry.ref :=
  rfl

theorem attemptOrder_machine (machine : (orderRouting order deps).executionClass ≠ .human)
    (routed : isAiExecutionClass (orderRouting order deps).executionClass = false) :
    attemptOrder platform order deps =
      (wiredCapabilities order deps).map RegisteredCapability.ref ++
        escalationRefs platform order deps := by
  rw [attemptOrder, if_neg machine, if_neg (by simp [routed])]

theorem attemptOrder_ai
    (routed : isAiExecutionClass (orderRouting order deps).executionClass = true) :
    attemptOrder platform order deps = wiredModelRefs platform order deps := by
  have machine : (orderRouting order deps).executionClass ≠ .human := by
    intro human
    rw [human] at routed
    cases routed
  rw [attemptOrder, if_neg machine, if_pos routed]

theorem outageDeps_setUpAs (estimate : AdapterRef → Except Thrown CostEstimate) :
    (outageDeps deps.workRegistry deps.modelRegistry deps.wired estimate).SetUpAs deps :=
  ⟨rfl, rfl, outageDeps_wired⟩

/-- The order of the attempts is a matter of the registries and the wiring alone. -/
theorem OrchestratorDeps.SetUpAs.attemptOrder_eq (same : other.SetUpAs deps) :
    attemptOrder platform order other = attemptOrder platform order deps := by
  have routing : orderRouting order other = orderRouting order deps := by
    rw [orderRouting, same.workRegistry, ← orderRouting.eq_1]
  have chain : modelChain platform order other = modelChain platform order deps := by
    rw [modelChain, same.modelRegistry, ← modelChain.eq_1]
  have capabilities : wiredCapabilities order other = wiredCapabilities order deps := by
    rw [wiredCapabilities_eq, wiredCapabilities_eq, same.workRegistry, same.wired]
  have models : wiredModels platform order other = wiredModels platform order deps := by
    rw [wiredModels_eq, wiredModels_eq, chain, same.wired]
  simp only [attemptOrder, escalationRefs, wiredModelRefs, routing, capabilities, models]

end SetUp

/-! ### Runs that return -/

section Sound

variable {platform : Platform} {order : WorkOrder} {deps : OrchestratorDeps} {adapter : AdapterRef}
  {actions more : List Action} {outcome : Except Thrown WorkOrderResult}
  {offers : AdapterRef → Set (Except Thrown CostEstimate)}

/-- No estimate was rejected. -/
def Assessed (actions : List Action) : Prop :=
  ∀ adapter error, .estimated adapter (.error error) ∉ actions

theorem Assessed.append (left : Assessed actions) (right : Assessed more) :
    Assessed (actions ++ more) := by
  intro adapter error present
  rcases List.mem_append.mp present with h | h
  · exact left adapter error h
  · exact right adapter error h

theorem Quiet.assessed (quiet : Quiet actions) : Assessed actions := by
  intro adapter error present
  obtain ⟨event, reply, h⟩ := quiet _ present
  cases h

theorem Cleared.assessed (cleared : Cleared platform order deps adapter actions) :
    Assessed actions := by
  cases cleared with
  | unbudgeted => simp [Assessed]
  | within => simp [Assessed]

theorem Started.assessed (started : Started platform order deps adapter actions) :
    Assessed actions := by
  obtain ⟨cleared, worker, tool⟩ := started
  exact (cleared.assessed.append worker.quiet.assessed).append tool.quiet.assessed

theorem Failed.assessed (publishes : deps.bus.Resolves) {error : Thrown}
    (failed : Failed platform order deps adapter error actions) : Assessed actions := by
  obtain ⟨start, started, rfl⟩ := failed.rejected_call publishes
  exact started.assessed.append (by simp [Assessed])

theorem FellThrough.assessed (publishes : deps.bus.Resolves) {tried : List AdapterRef}
    (fell : FellThrough platform order deps tried actions) : Assessed actions := by
  induction fell with
  | none => simp [Assessed]
  | more _ failed _ ih => exact ih.append (failed.assessed publishes)

theorem FellThrough.affords {gate : JsValue} (present : order.budget = some gate)
    {tried : List AdapterRef} (fell : FellThrough platform order deps tried actions) :
    ∀ passed ∈ tried, ∃ est, Estimates deps passed (.ok est) ∧ Affords platform order est := by
  induction fell with
  | none => simp
  | more _ failed _ ih =>
    intro passed listed
    rcases List.mem_append.mp listed with before | last
    · exact ih passed before
    · obtain rfl := List.mem_singleton.mp last
      exact failed.affords present

/-- Whatever an adapter that a run comes to replies, the budget gate comes to a decision. -/
theorem EstimatesAssessable.assessable (assessable : EstimatesAssessable platform order deps offers)
    (offered : ∀ adapter reply, Estimates deps adapter reply → reply ∈ offers adapter)
    {tried later : List AdapterRef}
    (split : attemptOrder platform order deps = tried ++ adapter :: later)
    (fell : FellThrough platform order deps tried actions) {reply : Except Thrown CostEstimate}
    (estimates : Estimates deps adapter reply) : Assessable platform order reply := by
  intro gate present
  have affordable : MayAfford platform order offers tried := by
    intro passed listed
    obtain ⟨est, given, affords⟩ := fell.affords present passed listed
    exact ⟨est, offered passed _ given, affords⟩
  exact assessable tried adapter later split affordable reply (offered adapter reply estimates) gate
    present

theorem Broken.unassessable (publishes : deps.bus.Resolves) {error : Thrown}
    (broken : Broken platform order deps adapter error actions) :
    ∃ reply, Estimates deps adapter reply ∧ ¬ Assessable platform order reply := by
  cases broken with
  | estimate present estimates =>
    refine ⟨_, estimates, fun assessable => ?_⟩
    obtain ⟨est, check, resolved, -⟩ := assessable _ present
    cases resolved
  | budget present estimates checked same =>
    refine ⟨_, estimates, fun assessable => ?_⟩
    obtain ⟨est, check, resolved, checked'⟩ := assessable _ present
    cases resolved
    rw [checked] at checked'
    cases checked'
  | worker cleared worker => cases publishes.emits_ok worker
  | tool cleared worker tool => cases publishes.emits_ok tool

/-- A run that returns without a rejected estimate. -/
def Sound (outcome : Except Thrown WorkOrderResult) (actions : List Action) : Prop :=
  (∃ result, outcome = .ok result) ∧ Assessed actions

theorem Sound.after (sound : Sound outcome more) (before : Assessed actions) :
    Sound outcome (actions ++ more) :=
  ⟨sound.1, before.append sound.2⟩

theorem Closes.sound (publishes : deps.bus.Resolves) {type : EventType} {result : WorkOrderResult}
    (closes : Closes order deps type result outcome actions) : Sound outcome actions :=
  ⟨⟨result, publishes.closes_ok closes⟩, closes.quiet.assessed⟩

theorem Settles.sound (publishes : deps.bus.Resolves)
    (assessable : ∀ reply, Estimates deps adapter reply → Assessable platform order reply)
    {overBudget failed : WorkOrderResult} {completed : Reply → WorkOrderResult → Prop}
    (settles : Settles platform order deps adapter overBudget failed completed outcome actions) :
    Sound outcome actions := by
  cases settles with
  | broken attempt =>
    obtain ⟨reply, estimates, unassessable⟩ := attempt.unassessable publishes
    exact absurd (assessable reply estimates) unassessable
  | overBudget attempt closes =>
    obtain ⟨present, estimates, checked, refused⟩ := attempt
    exact (closes.sound publishes).after (by simp [Assessed])
  | completed attempt carries =>
    obtain ⟨entry, started, completed⟩ := attempt
    refine ⟨⟨_, rfl⟩, ?_⟩
    exact (started.assessed.append (by simp [Assessed])).append completed.quiet.assessed
  | failed attempt final closes => exact (closes.sound publishes).after (attempt.assessed publishes)

/-- The model path after adapters that it falls back from. -/
theorem ModelRun.sound (publishes : deps.bus.Resolves)
    (assessable : EstimatesAssessable platform order deps offers)
    (offered : ∀ adapter reply, Estimates deps adapter reply → reply ∈ offers adapter)
    {tried : List AdapterRef} (before : FellThrough platform order deps tried actions)
    (path : attemptOrder platform order deps = tried ++ wiredModelRefs platform order deps)
    {cls : ExecutionClass} (run : ModelRun platform order deps cls outcome more) :
    Sound outcome more := by
  cases run with
  | missingRequest _ closes | noEligible _ closes => exact closes.sound publishes
  | exhausted fell _ closes => exact (closes.sound publishes).after (fell.assessed publishes)
  | @settled passed rest entry _ _ _ requested split fell settles =>
    have whole : attemptOrder platform order deps =
        (tried ++ passed.map ModelEntry.ref) ++ entry.ref :: rest.map ModelEntry.ref := by
      simp [path, wiredModelRefs, requested, split]
    refine (settles.sound publishes fun reply estimates => ?_).after (fell.assessed publishes)
    exact assessable.assessable offered whole (before.append fell) estimates

theorem CapabilityRun.sound (publishes : deps.bus.Resolves)
    (assessable : EstimatesAssessable platform order deps offers)
    (offered : ∀ adapter reply, Estimates deps adapter reply → reply ∈ offers adapter)
    (machine : (orderRouting order deps).executionClass ≠ .human)
    (routed : isAiExecutionClass (orderRouting order deps).executionClass = false)
    {routing : WorkRoutingDecision}
    (run : CapabilityRun platform order deps routing outcome actions) : Sound outcome actions := by
  cases run with
  | unwired _ closes => exact closes.sound publishes
  | exhausted _ fell _ closes => exact (closes.sound publishes).after (fell.assessed publishes)
  | @settled passed rest candidate _ _ _ split fell settles =>
    have whole : attemptOrder platform order deps = passed.map RegisteredCapability.ref ++
        candidate.ref ::
          (rest.map RegisteredCapability.ref ++ escalationRefs platform order deps) := by
      rw [attemptOrder_machine machine routed, split]
      simp
    refine (settles.sound publishes fun reply estimates => ?_).after (fell.assessed publishes)
    exact assessable.assessable offered whole fell estimates
  | escalated wired fell reasoned model =>
    refine (model.sound publishes assessable offered fell ?_).after (fell.assessed publishes)
    rw [attemptOrder_machine machine routed, escalationRefs, if_pos ⟨wired, reasoned⟩]

theorem OrderRun.sound (publishes : deps.bus.Resolves) (evaluates : PolicyEvaluates platform order)
    (assessable : PolicyAllows platform order → EstimatesAssessable platform order deps offers)
    (offered : ∀ adapter reply, Estimates deps adapter reply → reply ∈ offers adapter)
    (run : OrderRun platform order deps outcome actions) : Sound outcome actions := by
  cases run with
  | broken present evaluated =>
    obtain ⟨decision, h⟩ := evaluates _ present
    rw [evaluated] at h
    cases h
  | denied _ _ _ closes | approval _ _ _ closes => exact closes.sound publishes
  | routed allowed run =>
    cases run with
    | unplanned planned => cases publishes.emits_ok planned
    | human planned routed closes => exact (closes.sound publishes).after planned.quiet.assessed
    | capability planned machine routed run =>
      exact (run.sound publishes (assessable allowed) offered machine routed).after
        planned.quiet.assessed
    | model planned routed run =>
      have sound := run.sound publishes (assessable allowed) offered .none (attemptOrder_ai routed)
      exact sound.after planned.quiet.assessed

theorem Sound.handled (sound : Sound outcome actions) :
    HandledAsFailures platform order deps outcome actions := by
  rintro before adapter error rest rfl
  exact absurd (by simp) (sound.2 adapter error)

end Sound

/-! ### Runs that throw -/

theorem filter_map_split {α β : Type} {items : List α} {keep : α → Bool} {f : α → β}
    {tried later : List β} {bad : β}
    (split : (items.filter keep).map f = tried ++ bad :: later) :
    ∃ before item rest, items = before ++ item :: rest ∧ (before.filter keep).map f = tried ∧
      keep item = true ∧ f item = bad := by
  obtain ⟨kept, others, hKept, rfl, hOthers⟩ := List.map_eq_append_iff.mp split
  obtain ⟨item, kept', rfl, rfl, -⟩ := List.map_eq_cons_iff.mp hOthers
  obtain ⟨before, rest, rfl, rfl, hRest⟩ := List.filter_eq_append_iff.mp hKept
  obtain ⟨dropped, rest', rfl, unkept, isKept, -⟩ := List.filter_eq_cons_iff.mp hRest
  have none_kept : dropped.filter keep = [] := List.filter_eq_nil_iff.mpr unkept
  exact ⟨before ++ dropped, item, rest', by simp, by simp [none_kept], isKept, rfl⟩

/-- Where the gate cannot read the policy, every run throws at once. -/
theorem executeWorkOrder_policy_throws {platform : Platform} {order : WorkOrder} {policy : JsValue}
    {reason : TypeError} (present : order.policy = some policy)
    (evaluated : evaluate platform.realm policy = .error reason) (deps : OrchestratorDeps)
    (history : History) :
    executeWorkOrder platform order deps history = (.error (.typeError reason), []) := by
  simp only [executeWorkOrder, present, evaluated]
  rfl

section Throws

variable {platform : Platform} {order : WorkOrder} {registry : CapabilityRegistry}
  {models : List ModelEntry} {wired : AdapterRef → Bool}
  {estimate : AdapterRef → Except Thrown CostEstimate} {history : History}
  {tried later : List AdapterRef} {bad : AdapterRef}

/-- Adapters whose estimates the budget affords. -/
def Affordable (platform : Platform) (order : WorkOrder)
    (estimate : AdapterRef → Except Thrown CostEstimate) (tried : List AdapterRef) : Prop :=
  ∀ passed ∈ tried, ∃ est, estimate passed = .ok est ∧ Affords platform order est

theorem Affordable.of_filter {α : Type} {before : List α} {ref : α → AdapterRef}
    (affordable : Affordable platform order estimate
      ((before.filter fun item => wired (ref item)).map ref)) :
    ∀ item ∈ before, wired (ref item) = true →
      ∃ est, estimate (ref item) = .ok est ∧ Affords platform order est := by
  intro item listed isWired
  refine affordable (ref item) (List.mem_map_of_mem ?_)
  exact List.mem_filter.mpr ⟨listed, isWired⟩

theorem modelPath_throws (cls : ExecutionClass)
    (split : wiredModelRefs platform order (outageDeps registry models wired estimate) =
      tried ++ bad :: later)
    (affordable : Affordable platform order estimate tried)
    (unassessable : ¬ Assessable platform order (estimate bad)) :
    wp (modelPath platform order (outageDeps registry models wired estimate) cls) history
      fun outcome _ => ∃ error, outcome = .error error := by
  rw [wiredModelRefs, wiredModels_eq, outageDeps_wired] at split
  cases present : order.modelRequest with
  | none => simp [present] at split
  | some request =>
  rw [if_neg (by simp [present])] at split
  obtain ⟨before, entry, rest, chain, rfl, isWired, rfl⟩ := filter_map_split split
  rw [modelChain] at chain
  simp only [modelPath, present]
  cases routed : routeModel platform.realm (modelRoutingInput order)
      (outageDeps registry models wired estimate).modelRegistry with
  | none => simp [routed] at chain
  | some decision =>
    simp only [routed] at chain
    simp only [chain, wp_bind]
    refine wp_mono (wp_forOf_throws rest none (fun passed listed state history => ?_)
      fun state history => modelPass_throws isWired unassessable state) ?_
    · exact modelPass_outage (affordable.of_filter passed listed) state
    · rintro _ actions ⟨error, rfl⟩
      exact ⟨error, rfl⟩

theorem capabilityLoop_throws {candidates : List RegisteredCapability}
    (split : (candidates.filter fun candidate => wired candidate.ref).map
      RegisteredCapability.ref = tried ++ bad :: later)
    (affordable : Affordable platform order estimate tried)
    (unassessable : ¬ Assessable platform order (estimate bad)) :
    wp (forOf (capabilityPass platform order (outageDeps registry models wired estimate))
      candidates false) history fun outcome _ => ∃ error, outcome = .error error := by
  obtain ⟨before, candidate, rest, rfl, rfl, isWired, rfl⟩ := filter_map_split split
  refine wp_forOf_throws rest false (fun passed listed state history => ?_)
    fun state history => capabilityPass_throws isWired unassessable state
  cases passedWired : wired passed.ref with
  | false =>
    have unwired : (outageDeps registry models wired estimate).wired passed.ref = false := by
      rw [outageDeps_wired, passedWired]
    exact wp_mono (capabilityPass_unwired unwired state) fun _ _ next => ⟨_, next.1⟩
  | true =>
    obtain ⟨est, given, affords⟩ := affordable.of_filter passed listed passedWired
    exact wp_mono (capabilityPass_outage passedWired given affords state)
      fun _ _ next => ⟨_, next.1⟩

theorem capabilityPath_throws (routing : WorkRoutingDecision)
    (split : (wiredCapabilities order (outageDeps registry models wired estimate)).map
        RegisteredCapability.ref ++
      escalationRefs platform order (outageDeps registry models wired estimate) =
        tried ++ bad :: later)
    (affordable : Affordable platform order estimate tried)
    (unassessable : ¬ Assessable platform order (estimate bad)) :
    wp (capabilityPath platform order (outageDeps registry models wired estimate) routing) history
      fun outcome _ => ∃ error, outcome = .error error := by
  rw [capabilityPath, wp_bind]
  rcases split_append split with ⟨others, here, -⟩ | ⟨tried', rfl, there⟩
  · -- The capability loop comes to the adapter.
    rw [wiredCapabilities_eq, outageDeps_wired] at here
    refine wp_mono (capabilityLoop_throws here affordable unassessable) ?_
    rintro _ actions ⟨error, rfl⟩
    exact ⟨error, rfl⟩
  · -- Every capability fails, and the run comes to the adapter on the model path.
    rw [escalationRefs] at there
    split at there
    case isFalse => simp at there
    case isTrue escalates =>
    obtain ⟨present, reasoned⟩ := escalates
    rw [wiredCapabilities_eq, outageDeps_wired] at present affordable
    have capabilitiesAffordable : Affordable platform order estimate _ :=
      fun passed listed => affordable passed (List.mem_append_left _ listed)
    refine wp_mono (capabilities_outage capabilitiesAffordable.of_filter false) ?_
    rintro _ actions ⟨rfl, -⟩
    have attempted : ((candidateCapabilities (workRoutingInput order)
        (outageDeps registry models wired estimate).workRegistry).any fun item =>
          wired item.ref) = true := by
      obtain ⟨candidate, listed⟩ := List.exists_mem_of_ne_nil _ present
      obtain ⟨candidateListed, isWired⟩ := List.mem_filter.mp listed
      exact List.any_eq_true.mpr ⟨candidate, candidateListed, isWired⟩
    simp only [Bool.false_or, attempted, Bool.not_true, Bool.false_eq_true, if_false, reasoned,
      ne_eq, not_true_eq_false]
    refine wp_mono (modelPath_throws .cloudAi there (fun passed listed => ?_) unassessable) ?_
    · exact affordable passed (List.mem_append_right _ listed)
    · rintro _ more ⟨error, rfl⟩
      exact ⟨error, rfl⟩

/-- A run throws at an adapter that it comes to if the budget gate cannot decide on its estimate. -/
theorem executeWorkOrder_outage_throws (allowed : PolicyAllows platform order)
    (split : attemptOrder platform order (outageDeps registry models wired estimate) =
      tried ++ bad :: later)
    (affordable : Affordable platform order estimate tried)
    (unassessable : ¬ Assessable platform order (estimate bad)) :
    wp (executeWorkOrder platform order (outageDeps registry models wired estimate)) history
      fun outcome _ => ∃ error, outcome = .error error := by
  rw [executeWorkOrder_allowed allowed, routeOrder, wp_bind]
  refine wp_mono (emit_resolves outageDeps_resolves .taskPlanned) ?_
  rintro _ actions ⟨rfl, -⟩
  simp only [← orderRouting.eq_1]
  by_cases human : (orderRouting order
      (outageDeps registry models wired estimate)).executionClass = .human
  · rw [attemptOrder, if_pos human] at split
    simp at split
  cases routed : isAiExecutionClass (orderRouting order
      (outageDeps registry models wired estimate)).executionClass with
  | true =>
    rw [attemptOrder_ai routed] at split
    simp only [if_neg human, Bool.not_true, Bool.false_eq_true, if_false]
    exact modelPath_throws _ split affordable unassessable
  | false =>
    rw [attemptOrder_machine human routed] at split
    simp only [if_neg human, Bool.not_false, if_true]
    exact capabilityPath_throws _ split affordable unassessable

end Throws

end Donna
