import Donna.Orchestrator.Locality

/-! What a run has tried when no model is left.  The router sorts one of two pools, the models that
cover the tier or all capable ones, so the fallbacks miss a capable model whose range starts above
the tier as soon as another model covers it. -/

namespace Donna

open Js Async Async.Program

/-! ### The fallbacks of a decision -/

/-- The fallbacks hold every other capable model as often as the registry does. -/
def CompleteFallbacks (registry : List ModelEntry) (input : ModelRoutingInput)
    (decision : ModelRoutingDecision) : Prop :=
  ∀ model : ModelEntry, model.Serves input → model ≠ decision.model →
    decision.fallbacks.count model = registry.count model

/-- Where a model covers the tier, no capable model starts above it. -/
def OnePool (registry : List ModelEntry) (input : ModelRoutingInput) : Prop :=
  (∃ model ∈ registry, model.Meets input ∧ model.Covers input.reasoningTier) →
    ∀ model ∈ registry, model.Serves input → model.tierRange.1 ≤ input.reasoningTier

section Fallbacks

variable {input : ModelRoutingInput} {registry : List ModelEntry}

theorem count_filter_of_mem {keep : ModelEntry → Bool} {models : List ModelEntry}
    {model : ModelEntry} (present : model ∈ models.filter keep) :
    (models.filter keep).count model = models.count model :=
  List.count_filter (List.of_mem_filter present)

theorem count_modelPool {model : ModelEntry} (inPool : model.InPool registry input) :
    (modelPool input registry).count model = registry.count model := by
  have present := mem_modelPool.mpr inPool
  -- Each of the two pools filters the eligible models.
  by_cases empty : (coveringPool input registry).isEmpty
  · rw [modelPool, if_pos empty] at present ⊢
    rw [capablePool] at present ⊢
    rw [count_filter_of_mem present, count_filter_of_mem (List.mem_filter.mp present).1]
  · rw [modelPool, if_neg empty] at present ⊢
    rw [coveringPool] at present ⊢
    rw [count_filter_of_mem present, count_filter_of_mem (List.mem_filter.mp present).1]

variable {realm : Realm} {decision : ModelRoutingDecision}

theorem mem_chain_iff (routed : routeModel realm input registry = some decision)
    {model : ModelEntry} : model ∈ decision.chain ↔ model.InPool registry input := by
  have chain : decision.chain = (modelPool input registry).insertionSort byCost := by
    simpa [routed] using routeModel_chain input registry realm
  rw [chain, List.mem_insertionSort, mem_modelPool]

theorem count_chain (routed : routeModel realm input registry = some decision)
    {model : ModelEntry} (inPool : model.InPool registry input) :
    decision.chain.count model = registry.count model := by
  have chain : decision.chain = (modelPool input registry).insertionSort byCost := by
    simpa [routed] using routeModel_chain input registry realm
  rw [chain, (List.perm_insertionSort byCost _).count_eq, count_modelPool inPool]

/-- With one pool, the models that are sorted are the capable ones. -/
theorem OnePool.inPool_iff (onePool : OnePool registry input) {model : ModelEntry} :
    model.InPool registry input ↔ model ∈ registry ∧ model.Serves input := by
  constructor
  · rintro ⟨listed, serves, -⟩
    exact ⟨listed, serves⟩
  · rintro ⟨listed, serves⟩
    exact ⟨listed, serves, fun covered => ⟨onePool covered model listed serves, serves.2⟩⟩

theorem completeFallbacks_iff (routed : routeModel realm input registry = some decision) :
    CompleteFallbacks registry input decision ↔ OnePool registry input := by
  constructor
  · intro complete covered model listed serves
    by_cases primary : model = decision.model
    · exact primary ▸ ((routeModel_choice routed).covers covered).1
    · have later : model ∈ decision.fallbacks := by
        rw [← List.count_pos_iff, complete model serves primary]
        exact List.count_pos_iff.mpr listed
      have inPool := (mem_chain_iff routed).mp (List.mem_cons_of_mem _ later)
      exact (inPool.2.2 covered).1
  · intro onePool model serves other
    have behind : decision.chain.count model = decision.fallbacks.count model :=
      List.count_cons_of_ne other.symm
    by_cases listed : model ∈ registry
    · rw [← behind]
      exact count_chain routed (onePool.inPool_iff.mpr ⟨listed, serves⟩)
    · have absent : model ∉ decision.fallbacks := fun present =>
        listed ((mem_chain_iff routed).mp (List.mem_cons_of_mem _ present)).1
      rw [List.count_eq_zero_of_not_mem absent, List.count_eq_zero_of_not_mem listed]

end Fallbacks

/-! ### Runs -/

section Exhaustion

variable (platform : Platform) (order : WorkOrder) (deps : OrchestratorDeps)

/-- Within a run, an attempt at the adapter that failed with the error. -/
def FailedAttempt (adapter : AdapterRef) (error : Thrown) (actions : List Action) : Prop :=
  ∃ before last after, actions = before ++ (last ++ after) ∧
    Failed platform order deps adapter error last

/-- A run that fails on the model path because every attempt failed and could be retried. -/
structure ModelsUnavailable (outcome : Except Thrown WorkOrderResult) (actions : List Action) :
    Prop where
  failed : ∃ result executionClass, outcome = .ok result ∧ result.status = .failed ∧
    result.executionClass = some executionClass ∧ isAiExecutionClass executionClass = true ∧
    (result.reason = some .noAdapter ∨ result.reason = some .adapterError)
  retryable : ∀ adapter error, FailedAttempt platform order deps adapter error actions →
    isRetryable (deps.classifyError adapter error) = true

/-- Every capable model of the registry that is wired was attempted and failed retryably. -/
def TriedEveryModel (actions : List Action) : Prop :=
  ∀ entry ∈ deps.modelRegistry, entry.Serves (modelRoutingInput order) →
    deps.resolveModelAdapter entry.id ≠ none →
      ∃ error, FailedAttempt platform order deps entry.ref error actions ∧
        isRetryable (deps.classifyError entry.ref error) = true

variable {platform order deps}
  {outcome : Except Thrown WorkOrderResult} {actions more : List Action} {adapter : AdapterRef}
  {error : Thrown}

theorem FailedAttempt.append_left (attempt : FailedAttempt platform order deps adapter error more)
    (actions : List Action) :
    FailedAttempt platform order deps adapter error (actions ++ more) := by
  obtain ⟨before, last, after, rfl, failed⟩ := attempt
  exact ⟨actions ++ before, last, after, by rw [List.append_assoc], failed⟩

theorem FailedAttempt.append_right
    (attempt : FailedAttempt platform order deps adapter error actions) (more : List Action) :
    FailedAttempt platform order deps adapter error (actions ++ more) := by
  obtain ⟨before, last, after, rfl, failed⟩ := attempt
  exact ⟨before, last, after ++ more, by simp, failed⟩

theorem Failed.attempt {last : List Action}
    (failed : Failed platform order deps adapter error last) :
    FailedAttempt platform order deps adapter error last :=
  ⟨[], last, [], by simp, failed⟩

theorem FellThrough.attempted {tried : List AdapterRef}
    (fell : FellThrough platform order deps tried actions) :
    ∀ adapter ∈ tried, ∃ error, FailedAttempt platform order deps adapter error actions ∧
      isRetryable (deps.classifyError adapter error) = true := by
  induction fell with
  | none => simp
  | more before failed retryable ih =>
    intro adapter present
    rcases List.mem_append.mp present with earlier | last
    · obtain ⟨error, attempt, retried⟩ := ih adapter earlier
      exact ⟨error, attempt.append_right _, retried⟩
    · obtain rfl := List.mem_singleton.mp last
      exact ⟨_, failed.attempt.append_left _, retryable⟩

/-- The run that follows some actions is one whose models are unavailable too. -/
theorem ModelsUnavailable.of_append
    (unavailable : ModelsUnavailable platform order deps outcome (actions ++ more)) :
    ModelsUnavailable platform order deps outcome more :=
  ⟨unavailable.failed, fun adapter error attempt =>
    unavailable.retryable adapter error (attempt.append_left actions)⟩

theorem TriedEveryModel.append_left (tried : TriedEveryModel platform order deps more)
    (actions : List Action) : TriedEveryModel platform order deps (actions ++ more) := by
  intro entry listed serves wired
  obtain ⟨error, attempt, retried⟩ := tried entry listed serves wired
  exact ⟨error, attempt.append_left actions, retried⟩

/-- A loop that an attempt ends does not fail for want of a model. -/
theorem Settles.available {overBudget failed : WorkOrderResult}
    {completed : Reply → WorkOrderResult → Prop}
    (settles : Settles platform order deps adapter overBudget failed completed outcome actions)
    (overStatus : overBudget.status ≠ .failed)
    (completedStatus : ∀ reply result, completed reply result → result.status ≠ .failed) :
    ¬ ModelsUnavailable platform order deps outcome actions := by
  rintro ⟨⟨result, -, resolved, status, -⟩, retryable⟩
  cases settles with
  | broken attempt => cases resolved
  | overBudget attempt closes => exact overStatus (closes.result_eq resolved ▸ status)
  | completed attempt carries =>
    cases resolved
    exact completedStatus _ _ carries status
  | failed attempt final closes =>
    have retried := retryable adapter _ (attempt.attempt.append_right _)
    rw [final] at retried
    cases retried

theorem mem_modelChain (onePool : OnePool deps.modelRegistry (modelRoutingInput order))
    {entry : ModelEntry} (listed : entry ∈ deps.modelRegistry)
    (serves : entry.Serves (modelRoutingInput order)) : entry ∈ modelChain platform order deps := by
  unfold modelChain
  split
  next unmatched => exact absurd serves ((routeModel_eq_none_iff _).mp unmatched entry listed)
  next decision routed => exact (mem_chain_iff routed).mpr (onePool.inPool_iff.mpr ⟨listed, serves⟩)

theorem ModelRun.triedEveryModel {executionClass : ExecutionClass}
    (run : ModelRun platform order deps executionClass outcome actions)
    (onePool : OnePool deps.modelRegistry (modelRoutingInput order))
    (unavailable : ModelsUnavailable platform order deps outcome actions) :
    TriedEveryModel platform order deps actions := by
  cases run with
  | missingRequest absent closes =>
    obtain ⟨⟨result, -, resolved, -, -, -, reason⟩, -⟩ := unavailable
    rw [closes.result_eq resolved] at reason
    simp [modelFailed] at reason
  | noEligible unmatched closes =>
    intro entry listed serves
    exact absurd serves ((routeModel_eq_none_iff _).mp unmatched entry listed)
  | settled requested split before settles =>
    refine absurd unavailable.of_append (settles.available (by simp [modelOverBudget]) ?_)
    rintro reply result ⟨reply', -, rfl⟩
    simp [modelCompleted]
  | exhausted before unwired closes =>
    intro entry listed serves wired
    have chained : entry ∈ modelChain platform order deps :=
      mem_modelChain onePool listed serves
    have present : entry ∈ wiredModels platform order deps :=
      List.mem_filter.mpr ⟨chained, Option.isSome_iff_ne_none.mpr wired⟩
    obtain ⟨error, attempt, retried⟩ := before.attempted _ (List.mem_map_of_mem present)
    exact ⟨error, attempt.append_right _, retried⟩

theorem CapabilityRun.triedEveryModel {routing : WorkRoutingDecision}
    (machine : isAiExecutionClass routing.executionClass = false)
    (run : CapabilityRun platform order deps routing outcome actions)
    (onePool : OnePool deps.modelRegistry (modelRoutingInput order))
    (unavailable : ModelsUnavailable platform order deps outcome actions) :
    TriedEveryModel platform order deps actions := by
  cases run with
  | settled split before settles =>
    refine absurd unavailable.of_append (settles.available (by simp [capabilityOverBudget]) ?_)
    rintro reply result ⟨output, -, rfl⟩
    simp [capabilityCompleted]
  | unwired absent closes =>
    obtain ⟨⟨result, -, resolved, status, -⟩, -⟩ := unavailable
    rw [closes.result_eq resolved] at status
    cases status
  | exhausted wired before unreasoned closes =>
    -- The failure of the capability path names the class of its routing, which is no AI class.
    obtain ⟨⟨result, executionClass, resolved, -, named, ai, -⟩, -⟩ := unavailable
    rw [closes.result_eq resolved] at named
    cases named
    rw [machine] at ai
    cases ai
  | escalated wired before reasoned model =>
    exact (model.triedEveryModel onePool unavailable.of_append).append_left _

theorem OrderRun.triedEveryModel (run : OrderRun platform order deps outcome actions)
    (onePool : OnePool deps.modelRegistry (modelRoutingInput order))
    (unavailable : ModelsUnavailable platform order deps outcome actions) :
    TriedEveryModel platform order deps actions := by
  obtain ⟨result, executionClass, resolved, status, -⟩ := unavailable.failed
  cases run with
  | broken => cases resolved
  | denied _ _ _ closes =>
    rw [closes.result_eq resolved] at status
    cases status
  | approval _ _ _ closes =>
    rw [closes.result_eq resolved] at status
    cases status
  | routed allowed run =>
    cases run with
    | unplanned => cases resolved
    | human planned routed closes =>
      rw [closes.result_eq resolved] at status
      cases status
    | capability planned machine routed run =>
      exact (run.triedEveryModel routed onePool unavailable.of_append).append_left _
    | model planned routed run =>
      exact (run.triedEveryModel onePool unavailable.of_append).append_left _

end Exhaustion

/-- The fallbacks are complete exactly where the registry is one pool for the request; there a run
fails for want of a model only once every capable wired model has failed retryably. -/
theorem fallbacks_complete (input : ModelRoutingInput) (registry : List ModelEntry) :
    (∀ (realm : Realm) (decision : ModelRoutingDecision),
      routeModel realm input registry = some decision →
        (CompleteFallbacks registry input decision ↔ OnePool registry input)) ∧
    (OnePool registry input →
      ∀ (platform : Platform) (order : WorkOrder) (deps : OrchestratorDeps) (history : History),
        modelRoutingInput order = input → deps.modelRegistry = registry →
        wp (executeWorkOrder platform order deps) history fun outcome actions =>
          ModelsUnavailable platform order deps outcome actions →
            TriedEveryModel platform order deps actions) := by
  constructor
  · intro realm decision routed
    exact completeFallbacks_iff routed
  · rintro onePool platform order deps history rfl rfl
    exact wp_mono executeWorkOrder_run fun outcome actions run => run.triedEveryModel onePool

theorem localDeps_onePool : OnePool localDeps.modelRegistry (modelRoutingInput localOrder) := by
  intro _ model listed _
  have start : model.tierRange.1 = 0 := by
    rcases List.mem_cons.mp listed with rfl | last
    · rfl
    · rw [List.mem_singleton.mp last]
      rfl
  rw [start]
  decide +kernel

theorem fallbacks_complete_local :
    (CompleteFallbacks [cloudModel, localModel] localRequest
        { model := localModel, fallbacks := [],
          reason := "Cheapest model covering tier 2: local." } ↔
      OnePool [cloudModel, localModel] localRequest) ∧
    wp (executeWorkOrder .plain localOrder localDeps) [] fun outcome actions =>
      ModelsUnavailable .plain localOrder localDeps outcome actions →
        TriedEveryModel .plain localOrder localDeps actions :=
  ⟨(fallbacks_complete localRequest [cloudModel, localModel]).1 .plain _ (by decide +kernel),
    (fallbacks_complete localRequest [cloudModel, localModel]).2 localDeps_onePool .plain localOrder
      localDeps [] rfl rfl⟩

/-- A model for the hard tiers alone. -/
def frontierModel : ModelEntry :=
  { cloudModel with id := "frontier", outputCostPer1M := 75, tierRange := (6, 9) }

/-- A request at tier 2 that a cheap model covers cannot fall back to the frontier model. -/
theorem fallbacks_miss_frontier :
    ¬ ∀ (realm : Realm) (input : ModelRoutingInput) (registry : List ModelEntry)
        (decision : ModelRoutingDecision), routeModel realm input registry = some decision →
      CompleteFallbacks registry input decision := by
  intro complete
  have count := complete .plain { localRequest with requireLocal := none }
    [cloudModel, frontierModel]
    { model := cloudModel, fallbacks := [], reason := "Cheapest model covering tier 2: cheap." }
    (by decide +kernel) frontierModel
    ⟨isEligible_iff.mp (by decide +kernel), by decide +kernel⟩ (by decide +kernel)
  exact absurd count (by decide +kernel)

end Donna
