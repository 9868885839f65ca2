import Donna.Orchestrator.Attempts

/-! An outage: every wired adapter gives its estimate and then rejects each call as unavailable.  A
run passes over an adapter whose estimate the budget affords, and throws at one whose estimate
rejects or cannot be checked. -/

namespace Donna

open Js Async Async.Program

/-- The budget of an order, if it has one, has room for an estimate. -/
def Affords (platform : Platform) (order : WorkOrder) (est : CostEstimate) : Prop :=
  ∀ gate, order.budget = some gate →
    ∃ check, checkOrderBudget platform.realm gate est = .ok check ∧ check.allowed = true

/-- An attempt that failed under a budget had an estimate that the budget affords. -/
theorem Failed.affords {platform : Platform} {order : WorkOrder} {deps : OrchestratorDeps}
    {adapter : AdapterRef} {actions : List Action} {gate : JsValue}
    (present : order.budget = some gate) {error : Thrown}
    (failed : Failed platform order deps adapter error actions) :
    ∃ est, Estimates deps adapter (.ok est) ∧ Affords platform order est := by
  obtain ⟨start, started⟩ : ∃ start, Started platform order deps adapter start := by
    cases failed with
    | rejected started => exact ⟨_, started⟩
    | unannounced reply entry started completed => exact ⟨_, started⟩
  obtain ⟨cleared, -, -⟩ := started
  cases cleared with
  | unbudgeted absent => simp [absent] at present
  | @within given est check present' estimates checked allowed =>
    refine ⟨est, estimates, fun gate' given' => ?_⟩
    rw [present'] at given'
    obtain rfl := Option.some.inj given'
    exact ⟨check, checked, allowed⟩

/-- The budget gate of an order, if it has one, comes to a decision on a reply to `estimate`. -/
def Assessable (platform : Platform) (order : WorkOrder) (reply : Except Thrown CostEstimate) :
    Prop :=
  ∀ gate, order.budget = some gate →
    ∃ est check, reply = .ok est ∧ checkOrderBudget platform.realm gate est = .ok check

theorem executeWorkOrder_allowed {platform : Platform} {order : WorkOrder}
    {deps : OrchestratorDeps} (allowed : PolicyAllows platform order) :
    executeWorkOrder platform order deps = routeOrder platform order deps := by
  cases present : order.policy with
  | none => rw [executeWorkOrder, present]
  | some policy =>
    obtain ⟨decision, evaluated, effect⟩ := allowed policy present
    have lifted : liftTypeError (.ok decision) = (pure decision : Run PolicyDecision) := rfl
    simp only [executeWorkOrder, present, evaluated, lifted, pure_bind, effect]

/-- Which adapters are wired. -/
def OrchestratorDeps.wired (deps : OrchestratorDeps) : AdapterRef → Bool
  | .capability id => (deps.capabilityAdapter id).isSome
  | .model id => (deps.resolveModelAdapter id).isSome

def CapabilityAdapter.unavailable (estimate : Except Thrown CostEstimate) : CapabilityAdapter where
  estimate _ _ _ := estimate
  execute _ _ _ := .error (.value .null)
  reportUsage _ := none
  classifyError _ := .unavailable

def ModelAdapter.unavailable (estimate : Except Thrown CostEstimate) : ModelAdapter where
  estimate _ _ _ := estimate
  execute _ _ _ := .error (.value .null)
  classifyError _ := .unavailable

def outageDeps (registry : CapabilityRegistry) (models : List ModelEntry)
    (wired : AdapterRef → Bool) (estimate : AdapterRef → Except Thrown CostEstimate) :
    OrchestratorDeps where
  bus := BufferingEventBus
  workRegistry := registry
  modelRegistry := models
  resolveModelAdapter id :=
    if wired (.model id) then some (.unavailable (estimate (.model id))) else none
  resolveCapabilityAdapter := some fun id =>
    if wired (.capability id) then some (.unavailable (estimate (.capability id))) else none

section Outage

variable {platform : Platform} {order : WorkOrder} {registry : CapabilityRegistry}
  {models : List ModelEntry} {wired : AdapterRef → Bool}
  {estimate : AdapterRef → Except Thrown CostEstimate} {history : History}

theorem outageDeps_resolves : (outageDeps registry models wired estimate).bus.Resolves :=
  BufferingEventBus.resolves

theorem outageDeps_capabilityAdapter (id : String) :
    (outageDeps registry models wired estimate).capabilityAdapter id =
      if wired (.capability id) then some (.unavailable (estimate (.capability id))) else none :=
  rfl

theorem outageDeps_wired : (outageDeps registry models wired estimate).wired = wired := by
  funext adapter
  cases adapter with
  | capability id =>
    simp only [OrchestratorDeps.wired, outageDeps_capabilityAdapter]
    cases wired (.capability id) <;> rfl
  | model id =>
    simp only [OrchestratorDeps.wired, outageDeps]
    cases wired (.model id) <;> rfl

theorem Estimates.of_outage {adapter : AdapterRef} {reply : Except Thrown CostEstimate}
    (estimates : Estimates (outageDeps registry models wired estimate) adapter reply) :
    reply = estimate adapter := by
  cases estimates with
  | capability found =>
    rw [outageDeps_capabilityAdapter] at found
    split at found <;> cases found
    rfl
  | model found =>
    simp only [outageDeps] at found
    split at found <;> cases found
    rfl

/-! ### One attempt -/

section Attempt

variable {deps : OrchestratorDeps}

theorem emit_resolves (publishes : deps.bus.Resolves) (type : EventType) :
    wp (emit platform order deps type) history fun outcome actions =>
      outcome = .ok () ∧ actions ≠ [] := by
  refine wp_mono (emit_spec type) fun outcome actions emits => ?_
  refine ⟨publishes.emits_ok emits, ?_⟩
  cases emits
  exact List.cons_ne_nil _ _

theorem withinBudget_affords {est : CostEstimate} (affords : Affords platform order est)
    (action : Except Thrown CostEstimate → Action) :
    wp (withinBudget platform order (call (fun _ => .ok est) action)) history fun outcome _ =>
      outcome = .ok true := by
  unfold withinBudget
  cases present : order.budget with
  | none => rfl
  | some gate =>
    obtain ⟨check, checked, allowed⟩ := affords gate present
    simp only [wp_bind, wp_call, wp_liftTypeError, checked, Except.mapError, wp_pure, allowed]

theorem withinBudget_throws {reply : Except Thrown CostEstimate}
    (unassessable : ¬ Assessable platform order reply)
    (action : Except Thrown CostEstimate → Action) :
    wp (withinBudget platform order (call (fun _ => reply) action)) history fun outcome _ =>
      ∃ error, outcome = .error error := by
  unfold withinBudget
  cases present : order.budget with
  | none => exact absurd (fun gate given => by simp [present] at given) unassessable
  | some gate =>
    simp only [wp_bind, wp_call]
    cases reply with
    | error error => exact ⟨error, rfl⟩
    | ok est =>
      simp only [wp_liftTypeError]
      cases checked : checkOrderBudget platform.realm gate est with
      | error reason => exact ⟨_, rfl⟩
      | ok check =>
        refine absurd (fun gate' given => ?_) unassessable
        obtain rfl : gate = gate' := by simpa [present] using given
        exact ⟨est, check, rfl, checked⟩

variable {ρ : Type} {block : Run ρ}

theorem attemptAdapter_rejected (publishes : deps.bus.Resolves) {est : CostEstimate}
    (affords : Affords platform order est) (action : Except Thrown CostEstimate → Action)
    (rejects : ∀ history, wp block history fun outcome _ => outcome = .error (.value .null)) :
    wp (attemptAdapter platform order deps (call (fun _ => .ok est) action) block) history
      fun outcome actions => outcome = .ok (.rejected (.value .null)) ∧ actions ≠ [] := by
  rw [attemptAdapter, wp_bind]
  refine wp_mono (withinBudget_affords affords action) ?_
  rintro _ gate rfl
  simp only [Bool.not_true, Bool.false_eq_true, if_false, wp_bind]
  refine wp_mono (emit_resolves publishes .workerStarted) ?_
  rintro _ started ⟨rfl, happened⟩
  refine wp_mono (emit_resolves publishes .toolCalled) ?_
  rintro _ called ⟨rfl, -⟩
  simp only [wp_attempt]
  refine wp_mono (rejects _) ?_
  rintro _ last rfl
  simp [happened]

theorem attemptAdapter_throws {reply : Except Thrown CostEstimate}
    (unassessable : ¬ Assessable platform order reply)
    (action : Except Thrown CostEstimate → Action) :
    wp (attemptAdapter platform order deps (call (fun _ => reply) action) block) history
      fun outcome _ => ∃ error, outcome = .error error := by
  rw [attemptAdapter, wp_bind]
  refine wp_mono (withinBudget_throws unassessable action) ?_
  rintro _ gate ⟨error, rfl⟩
  exact ⟨error, rfl⟩

end Attempt

/-! ### One pass of a loop -/

theorem capabilityPass_unwired {deps : OrchestratorDeps} {candidate : RegisteredCapability}
    (unwired : deps.wired candidate.ref = false) (attempted : Bool) :
    wp (capabilityPass platform order deps candidate attempted) history fun outcome actions =>
      outcome = .ok (.next attempted) ∧ actions = [] := by
  have absent : deps.capabilityAdapter candidate.id = none := by
    simpa [OrchestratorDeps.wired, RegisteredCapability.ref] using unwired
  unfold capabilityPass
  rw [absent]
  exact ⟨rfl, rfl⟩

theorem capabilityPass_outage {candidate : RegisteredCapability} {est : CostEstimate}
    (isWired : wired candidate.ref = true) (estimated : estimate candidate.ref = .ok est)
    (affords : Affords platform order est) (attempted : Bool) :
    wp (capabilityPass platform order (outageDeps registry models wired estimate) candidate
      attempted) history fun outcome actions => outcome = .ok (.next true) ∧ actions ≠ [] := by
  rw [RegisteredCapability.ref] at isWired estimated
  simp only [capabilityPass, outageDeps_capabilityAdapter, isWired, if_true, wp_bind]
  simp only [CapabilityAdapter.unavailable, estimated]
  refine wp_mono (attemptAdapter_rejected outageDeps_resolves affords _ fun _ => rfl) ?_
  rintro _ actions ⟨rfl, happened⟩
  exact ⟨rfl, by simp [happened]⟩

theorem capabilityPass_throws {candidate : RegisteredCapability}
    (isWired : wired candidate.ref = true)
    (unassessable : ¬ Assessable platform order (estimate candidate.ref)) (attempted : Bool) :
    wp (capabilityPass platform order (outageDeps registry models wired estimate) candidate
      attempted) history fun outcome _ => ∃ error, outcome = .error error := by
  rw [RegisteredCapability.ref] at isWired
  simp only [capabilityPass, outageDeps_capabilityAdapter, isWired, if_true, wp_bind]
  refine wp_mono (attemptAdapter_throws unassessable _) ?_
  rintro _ actions ⟨error, rfl⟩
  exact ⟨error, rfl⟩

theorem modelPass_outage {cls : ExecutionClass} {request : ModelRequest} {entry : ModelEntry}
    (estimated : wired entry.ref = true →
      ∃ est, estimate entry.ref = .ok est ∧ Affords platform order est) (last : Option ErrorClass) :
    wp (modelPass platform order (outageDeps registry models wired estimate) cls request entry last)
      history fun outcome _ => ∃ later, outcome = .ok (.next later) := by
  rw [ModelEntry.ref] at estimated
  cases isWired : wired (.model entry.id) with
  | false =>
    simp only [modelPass, outageDeps, isWired]
    exact ⟨last, rfl⟩
  | true =>
    obtain ⟨est, here, affords⟩ := estimated isWired
    simp only [modelPass, outageDeps, isWired, if_true, wp_bind]
    simp only [ModelAdapter.unavailable, here]
    refine wp_mono (attemptAdapter_rejected BufferingEventBus.resolves affords _ fun _ => rfl) ?_
    rintro _ actions ⟨rfl, -⟩
    exact ⟨_, rfl⟩

theorem modelPass_throws {cls : ExecutionClass} {request : ModelRequest} {entry : ModelEntry}
    (isWired : wired entry.ref = true)
    (unassessable : ¬ Assessable platform order (estimate entry.ref)) (last : Option ErrorClass) :
    wp (modelPass platform order (outageDeps registry models wired estimate) cls request entry last)
      history fun outcome _ => ∃ error, outcome = .error error := by
  rw [ModelEntry.ref] at isWired
  simp only [modelPass, outageDeps, isWired, if_true, wp_bind]
  refine wp_mono (attemptAdapter_throws unassessable _) ?_
  rintro _ actions ⟨error, rfl⟩
  exact ⟨error, rfl⟩

/-! ### The capability loop -/

/-- Past candidates that the budget affords, the loop finishes. -/
theorem capabilities_outage {candidates : List RegisteredCapability}
    (estimated : ∀ candidate ∈ candidates, wired candidate.ref = true →
      ∃ est, estimate candidate.ref = .ok est ∧ Affords platform order est) (attempted : Bool) :
    wp (forOf (capabilityPass platform order (outageDeps registry models wired estimate))
      candidates attempted) history fun outcome actions =>
        outcome = .ok (.finished (attempted || candidates.any fun item => wired item.ref)) ∧
          (actions = [] → ∀ item ∈ candidates, wired item.ref = false) := by
  induction candidates generalizing attempted history with
  | nil => simp [forOf]
  | cons item items ih =>
    have later := fun state history => @ih history
      (fun candidate listed => estimated candidate (List.mem_cons_of_mem item listed)) state
    rw [forOf, wp_bind]
    cases isWired : wired item.ref with
    | true =>
      obtain ⟨est, here, affords⟩ := estimated item List.mem_cons_self isWired
      refine wp_mono (capabilityPass_outage isWired here affords attempted) ?_
      rintro _ actions ⟨rfl, happened⟩
      refine wp_mono (later true _) ?_
      rintro _ more ⟨rfl, -⟩
      simp [isWired, happened]
    | false =>
      have unwired : (outageDeps registry models wired estimate).wired item.ref = false := by
        rw [outageDeps_wired, isWired]
      refine wp_mono (capabilityPass_unwired unwired attempted) ?_
      rintro _ actions ⟨rfl, rfl⟩
      refine wp_mono (later attempted _) ?_
      rintro _ more ⟨rfl, silent⟩
      simp only [List.any_cons, isWired, Bool.false_or, List.nil_append, true_and]
      exact fun none => List.forall_mem_cons.mpr ⟨isWired, silent none⟩

end Outage

end Donna
