import Donna.Orchestrator.Outage

/-! Fallback across execution classes.  The class of the first choice decides the path of a run: a
human parks it, an AI class takes the model path, and any other capability is executed.  The loop
over the later candidates does not look at their class, and executes whatever is wired. -/

namespace Donna

open Js Async Async.Program

/-- A class whose capabilities run through capability adapters. -/
def ExecutionClass.Machine (cls : ExecutionClass) : Prop :=
  cls ≠ .human ∧ isAiExecutionClass cls = false

instance (cls : ExecutionClass) : Decidable cls.Machine := inferInstanceAs (Decidable (_ ∧ _))

/-- What `routeWork` decides when a candidate is its first choice. -/
def routingTo (chosen : RegisteredCapability) : WorkRoutingDecision where
  executionClass := chosen.executionClass
  capabilityId := some chosen.id
  reason := .capabilityMatched
  message := "Matched capability \"" ++ chosen.id ++ "\" (" ++ chosen.executionClass.name ++ ")."

section Paths

variable (platform : Platform) (order : WorkOrder) (deps : OrchestratorDeps)

/-- What follows once the non-AI candidates are exhausted. -/
def afterCandidates (routing : WorkRoutingDecision) (attempted : Bool) : Run WorkOrderResult :=
  if !attempted then
    finish platform order deps .taskBlocked (capabilityUnwired routing)
  else if order.needsReasoning ≠ some true then
    finish platform order deps .taskFailed (capabilityExhausted routing)
  else
    modelPath platform order deps .cloudAi

/-- The capability path from some candidates on. -/
def capabilitiesFrom (routing : WorkRoutingDecision) (candidates : List RegisteredCapability)
    (attempted : Bool) : Run WorkOrderResult := do
  match ← forOf (capabilityPass platform order deps) candidates attempted with
  | .returned result => pure result
  | .finished attempted => afterCandidates platform order deps routing attempted

/-- What a run does with its first choice. -/
def firstChoice (chosen : RegisteredCapability) : Run (Flow Bool WorkOrderResult) :=
  if chosen.executionClass = .human then do
    let result ← finish platform order deps .taskBlocked (awaitingHuman (routingTo chosen))
    pure (.done result)
  else if isAiExecutionClass chosen.executionClass then do
    let result ← modelPath platform order deps chosen.executionClass
    pure (.done result)
  else
    capabilityPass platform order deps chosen false

/-- A run that goes on with a candidate as with a first choice, and with the later ones only where
the candidate falls through. -/
def honour (routing : WorkRoutingDecision) (candidate : RegisteredCapability)
    (rest : List RegisteredCapability) (attempted : Bool) : Run WorkOrderResult := do
  match ← firstChoice platform order deps candidate with
  | .done result => pure result
  | .next now => capabilitiesFrom platform order deps routing rest (attempted || now)
  | .stop now => afterCandidates platform order deps routing (attempted || now)

/-- A run has been let through, was routed to capabilities, and has failed retryably at each of some
candidates, all of them wired. -/
structure FallsPast (history : History) (tried : List RegisteredCapability)
    (actions : List Action) : Prop where
  allowed : PolicyAllows platform order
  machine : (orderRouting order deps).executionClass.Machine
  wired : ∀ candidate ∈ tried, (deps.capabilityAdapter candidate.id).isSome
  ran : ∃ planned failed, emit platform order deps .taskPlanned history = (.ok (), planned) ∧
    forOf (capabilityPass platform order deps) tried false (history ++ planned) =
      (.ok (.finished true), failed) ∧
    actions = planned ++ failed

end Paths

section Specs

variable {platform : Platform} {order : WorkOrder} {deps : OrchestratorDeps} {history : History}
  {candidate first : RegisteredCapability} {tried rest : List RegisteredCapability}
  {routing : WorkRoutingDecision} {actions : List Action}

theorem routeWork_of_candidates {input : WorkRoutingInput} {registry : CapabilityRegistry}
    (split : candidateCapabilities input registry = first :: rest) :
    routeWork input registry = routingTo first := by
  rw [candidateCapabilities] at split
  split at split
  · cases split
  · next machine => rw [routeWork, if_neg machine, split, routingTo]

/-- A pass of the capability loop never breaks it. -/
theorem capabilityPass_unbroken (candidate : RegisteredCapability) (attempted : Bool)
    (history : History) (last : Bool) (actions : List Action) :
    capabilityPass platform order deps candidate attempted history ≠
      (.ok (.stop last), actions) := by
  intro ran
  cases wired : deps.capabilityAdapter candidate.id with
  | none =>
    simp only [capabilityPass, wired] at ran
    cases ran
  | some adapter =>
    have passed := @capabilityPass_wired platform order _ _ _ wired attempted history
    rw [wp, ran] at passed
    exact passed.1

/-- The state of the loop only says whether a wired candidate has been passed. -/
theorem capabilityPass_next {attempted later : Bool}
    (ran : capabilityPass platform order deps candidate false history =
      (.ok (.next later), actions)) :
    capabilityPass platform order deps candidate attempted history =
      (.ok (.next (attempted || later)), actions) := by
  cases wired : deps.capabilityAdapter candidate.id with
  | none =>
    simp only [capabilityPass, wired] at ran ⊢
    cases ran
    rw [Bool.or_false]
    rfl
  | some adapter =>
    have passed := @capabilityPass_wired platform order _ _ _ wired false history
    rw [wp, ran] at passed
    obtain rfl : later = true := passed.1
    rw [Bool.or_true, ← ran]
    simp only [capabilityPass, wired]

theorem capabilityPass_other {attempted : Bool}
    (left : ∀ later actions, capabilityPass platform order deps candidate false history ≠
      (.ok (.next later), actions)) :
    capabilityPass platform order deps candidate attempted history =
      capabilityPass platform order deps candidate false history := by
  cases wired : deps.capabilityAdapter candidate.id with
  | none => exact absurd (by simp only [capabilityPass, wired]; rfl) (left false [])
  | some adapter => simp only [capabilityPass, wired]

theorem capabilitiesFrom_cons (attempted : Bool) :
    capabilitiesFrom platform order deps routing (candidate :: rest) attempted history =
      match capabilityPass platform order deps candidate attempted history with
      | (.ok (.next later), actions) =>
        after actions (capabilitiesFrom platform order deps routing rest later (history ++ actions))
      | (.ok (.stop last), actions) =>
        after actions (afterCandidates platform order deps routing last (history ++ actions))
      | (.ok (.done result), actions) => (.ok result, actions)
      | (.error error, actions) => (.error error, actions) := by
  rw [capabilitiesFrom, forOf_cons_bind]
  rcases capabilityPass platform order deps candidate attempted history with
    ⟨error | later | last | result, actions⟩
  · rfl
  · rfl
  · rfl
  · exact Prod.ext rfl (List.append_nil _)

/-- A run that ends with its first choice. -/
theorem honour_of_done {attempted : Bool} {program : Run WorkOrderResult}
    (chosen : firstChoice platform order deps candidate = (do
      let result ← program
      pure (.done result))) :
    honour platform order deps routing candidate rest attempted = program := by
  rw [honour, chosen]
  simp only [bind_assoc, pure_bind, bind_pure]

/-- With a candidate that runs through an adapter, the loop goes on as with a first choice. -/
theorem capabilitiesFrom_eq_honour (machine : candidate.executionClass.Machine)
    (attempted : Bool) :
    capabilitiesFrom platform order deps routing (candidate :: rest) attempted history =
      honour platform order deps routing candidate rest attempted history := by
  have chosen : firstChoice platform order deps candidate =
      capabilityPass platform order deps candidate false := by
    rw [firstChoice, if_neg machine.1, if_neg (by simp [machine.2])]
  rw [capabilitiesFrom_cons, honour, chosen]
  rcases passed : capabilityPass platform order deps candidate false history with
    ⟨error | later | last | result, actions⟩
  · rw [bind_of_error passed, capabilityPass_other (by simp [passed]), passed]
  · rw [bind_of_ok passed, capabilityPass_next passed]
  · exact absurd passed (capabilityPass_unbroken candidate false history last actions)
  · rw [bind_of_ok passed, capabilityPass_other (by simp [passed]), passed]
    exact Prod.ext rfl (List.append_nil _).symm

/-- The run of an order that falls past some candidates goes on with the later ones. -/
theorem FallsPast.run (falls : FallsPast platform order deps history tried actions)
    (split : candidateCapabilities (workRoutingInput order) deps.workRegistry = tried ++ rest) :
    executeWorkOrder platform order deps history =
      after actions (capabilitiesFrom platform order deps (orderRouting order deps) rest true
        (history ++ actions)) := by
  obtain ⟨planned, failed, emitted, ran, rfl⟩ := falls.ran
  have path : capabilityPath platform order deps (orderRouting order deps) =
      capabilitiesFrom platform order deps (orderRouting order deps) (tried ++ rest) false := by
    rw [← split]
    rfl
  rw [executeWorkOrder_allowed falls.allowed, routeOrder, bind_of_ok emitted, ← orderRouting.eq_1,
    if_neg falls.machine.1, if_pos (by simp [falls.machine.2]), path, capabilitiesFrom,
    bind_of_after (forOf_append capabilityPass_unbroken ran rest), after_after, List.append_assoc]
  rfl

end Specs

/-! ### When the loop honours a class -/

/-- Whatever the adapters and the bus do, a run that falls past some candidates treats the next one
as a first choice. -/
def HonoursClass (platform : Platform) (order : WorkOrder) (registry : CapabilityRegistry)
    (wired : String → Bool) (tried : List RegisteredCapability) (candidate : RegisteredCapability)
    (rest : List RegisteredCapability) : Prop :=
  ∀ (deps : OrchestratorDeps) (history : History) (actions : List Action),
    deps.workRegistry = registry → (∀ id, (deps.capabilityAdapter id).isSome = wired id) →
    FallsPast platform order deps history tried actions →
      executeWorkOrder platform order deps history =
        after actions (honour platform order deps (orderRouting order deps) candidate rest true
          (history ++ actions))

/-- A run of the order can attempt its first choice at an adapter. -/
structure Attemptable (platform : Platform) (order : WorkOrder) (first : RegisteredCapability) :
    Prop where
  allowed : PolicyAllows platform order
  machine : first.executionClass.Machine
  affordable : ∃ est, Affords platform order est

def capabilitiesOnly (wired : String → Bool) : AdapterRef → Bool
  | .capability id => wired id
  | .model _ => false

/-- Dependencies whose capability adapters all fail retryably, with no model. -/
def failingDeps (registry : CapabilityRegistry) (wired : String → Bool) (est : CostEstimate) :
    OrchestratorDeps :=
  outageDeps registry [] (capabilitiesOnly wired) fun _ => .ok est

section Failing

variable {platform : Platform} {order : WorkOrder} {registry : CapabilityRegistry}
  {wired : String → Bool} {est : CostEstimate} {history : History}
  {candidate first : RegisteredCapability} {tried rest : List RegisteredCapability}

theorem failingDeps_wired (id : String) :
    ((failingDeps registry wired est).capabilityAdapter id).isSome = wired id := by
  have wiredAs : (failingDeps registry wired est).wired = capabilitiesOnly wired := outageDeps_wired
  exact congrFun wiredAs (.capability id)

theorem finish_failing (type : EventType) (result : WorkOrderResult) :
    ∃ event, finish platform order (failingDeps registry wired est) type result history =
      (.ok result, [.published event (.ok ())]) :=
  ⟨_, rfl⟩

theorem capabilities_failing (registry : CapabilityRegistry) (wired : String → Bool)
    (affords : Affords platform order est) (candidates : List RegisteredCapability)
    (attempted : Bool) (history : History) :
    ∃ actions, forOf (capabilityPass platform order (failingDeps registry wired est)) candidates
        attempted history =
          (.ok (.finished (attempted || candidates.any fun item => wired item.id)), actions) ∧
      (actions = [] → ∀ item ∈ candidates, wired item.id = false) := by
  have finished : wp (forOf (capabilityPass platform order (failingDeps registry wired est))
      candidates attempted) history _ :=
    capabilities_outage (fun _ _ _ => ⟨est, rfl, affords⟩) attempted
  exact ⟨_, Prod.ext finished.1 rfl, finished.2⟩

/-- Why the model path fails without a model. -/
def unmodelled (order : WorkOrder) : ResultReason :=
  if order.modelRequest.isNone then .missingModelRequest else .noEligibleModel

theorem modelPath_failing (cls : ExecutionClass) : ∃ event,
    modelPath platform order (failingDeps registry wired est) cls history =
      (.ok (modelFailed cls (unmodelled order)), [.published event (.ok ())]) := by
  cases request : order.modelRequest with
  | none =>
    simp only [modelPath, request, unmodelled, Option.isNone_none, if_true]
    exact finish_failing _ _
  | some request =>
    have unmatched : routeModel platform.realm (modelRoutingInput order)
        (failingDeps registry wired est).modelRegistry = none := rfl
    simp only [modelPath, *, unmodelled, Option.isNone_some, Bool.false_eq_true, if_false]
    exact finish_failing _ _

theorem failingDeps_fallsPast (attemptable : Attemptable platform order first)
    (affords : Affords platform order est)
    (split : candidateCapabilities (workRoutingInput order) registry = first :: tried ++ rest)
    (wiredBefore : ∀ passed ∈ first :: tried, wired passed.id = true) (history : History) :
    ∃ actions, FallsPast platform order (failingDeps registry wired est) history (first :: tried)
      actions := by
  have planned : emit platform order (failingDeps registry wired est) .taskPlanned history =
    (.ok (), [.published (order.event (platform.fresh history) .taskPlanned) (.ok ())]) := rfl
  obtain ⟨failed, ran, -⟩ := capabilities_failing registry wired affords (first :: tried) false
    (history ++ [.published (order.event (platform.fresh history) .taskPlanned) (.ok ())])
  have routed : orderRouting order (failingDeps registry wired est) = routingTo first :=
    routeWork_of_candidates split
  have any : (first :: tried).any (fun item => wired item.id) = true := by
    simp [wiredBefore first List.mem_cons_self]
  rw [any] at ran
  refine ⟨_, attemptable.allowed, ?_, fun passed listed => ?_, _, _, planned, ran, rfl⟩
  · rw [routed]
    exact attemptable.machine
  · rw [failingDeps_wired]
    exact wiredBefore passed listed

/-- How a run ends that has fallen past every candidate. -/
def exhaustedResult (order : WorkOrder) (routing : WorkRoutingDecision) : WorkOrderResult :=
  if order.needsReasoning = some true then modelFailed .cloudAi (unmodelled order)
  else capabilityExhausted routing

theorem exhaustedResult_status (order : WorkOrder) (routing : WorkRoutingDecision) :
    (exhaustedResult order routing).status = .failed := by
  unfold exhaustedResult
  split <;> rfl

/-- It ends as the model path of a class would only if it took that path. -/
theorem exhaustedResult_eq_modelFailed {routing : WorkRoutingDecision} {cls : ExecutionClass}
    (same : exhaustedResult order routing = modelFailed cls (unmodelled order)) :
    order.needsReasoning = some true ∧ cls = .cloudAi := by
  unfold exhaustedResult at same
  split at same
  · next reasoned =>
    have classes := congrArg WorkOrderResult.executionClass same
    exact ⟨reasoned, (Option.some.inj classes).symm⟩
  · have reasons := congrArg WorkOrderResult.reason same
    simp only [capabilityExhausted, modelFailed, unmodelled, Option.some.injEq] at reasons
    split at reasons <;> cases reasons

theorem afterCandidates_failing (routing : WorkRoutingDecision) (history : History) :
    ∃ event, afterCandidates platform order (failingDeps registry wired est) routing true history =
      (.ok (exhaustedResult order routing), [.published event (.ok ())]) := by
  rw [afterCandidates, if_neg (by simp), exhaustedResult]
  by_cases reasoned : order.needsReasoning = some true
  · rw [if_neg (not_not_intro reasoned), if_pos reasoned]
    exact modelPath_failing .cloudAi
  · rw [if_pos reasoned, if_neg reasoned]
    exact finish_failing _ _

theorem capabilitiesFrom_failing (registry : CapabilityRegistry) (wired : String → Bool)
    (affords : Affords platform order est) (routing : WorkRoutingDecision)
    (candidates : List RegisteredCapability) (history : History) :
    ∃ actions event,
      capabilitiesFrom platform order (failingDeps registry wired est) routing candidates true
        history = (.ok (exhaustedResult order routing), actions ++ [.published event (.ok ())]) ∧
      (actions = [] → ∀ item ∈ candidates, wired item.id = false) := by
  obtain ⟨actions, ran, silent⟩ := capabilities_failing registry wired affords candidates true
    history
  rw [Bool.true_or] at ran
  obtain ⟨event, ended⟩ := @afterCandidates_failing platform order registry wired est routing
    (history ++ actions)
  refine ⟨actions, event, ?_, silent⟩
  rw [capabilitiesFrom, bind_of_ok ran]
  exact congrArg (after actions) ended

end Failing

section Honours

variable {platform : Platform} {order : WorkOrder} {deps : OrchestratorDeps} {history : History}
  {registry : CapabilityRegistry} {wired : String → Bool} {actions : List Action}
  {candidate first : RegisteredCapability} {tried rest : List RegisteredCapability}

/-- An attempt that failed had the budget for it. -/
theorem Failed.affordable {adapter : AdapterRef} {error : Thrown}
    (failed : Failed platform order deps adapter error actions) :
    ∃ est, Affords platform order est := by
  cases present : order.budget with
  | none => exact ⟨⟨0, 0, 0⟩, fun gate given => by simp [present] at given⟩
  | some gate =>
    obtain ⟨est, -, affords⟩ := failed.affords present
    exact ⟨est, affords⟩

theorem FallsPast.attemptable
    (falls : FallsPast platform order deps history (first :: tried) actions)
    (split : candidateCapabilities (workRoutingInput order) deps.workRegistry =
      first :: tried ++ rest) : Attemptable platform order first := by
  obtain ⟨planned, failed, -, ran, rfl⟩ := falls.ran
  have routed : orderRouting order deps = routingTo first := routeWork_of_candidates split
  obtain ⟨adapter, wired⟩ := Option.isSome_iff_exists.mp (falls.wired first List.mem_cons_self)
  have passed := @capabilityPass_wired platform order _ _ _ wired false (history ++ planned)
  rw [forOf_cons] at ran
  have machine := falls.machine
  rw [routed] at machine
  refine ⟨falls.allowed, machine, ?_⟩
  rcases attempt : capabilityPass platform order deps first false (history ++ planned) with
    ⟨error | later | last | result, more⟩ <;> rw [attempt] at ran <;> rw [wp, attempt] at passed
  · cases ran
  · obtain ⟨-, error, atFirst, -⟩ := passed
    exact atFirst.affordable
  · exact passed.1.elim
  · cases ran

/-- Without any wired candidate left, a run that may reason continues with the cloud. -/
theorem capabilitiesFrom_unwired (reasoned : order.needsReasoning = some true)
    (unwired : ∀ item ∈ rest, deps.capabilityAdapter item.id = none)
    (routing : WorkRoutingDecision) :
    capabilitiesFrom platform order deps routing rest true history =
      modelPath platform order deps .cloudAi history := by
  induction rest generalizing history with
  | nil =>
    have ended : afterCandidates platform order deps routing true =
        modelPath platform order deps .cloudAi := by
      rw [afterCandidates, if_neg (by simp), if_neg (not_not_intro reasoned)]
    rw [capabilitiesFrom, forOf, pure_bind]
    exact congrFun ended history
  | cons item items ih =>
    obtain ⟨here, later⟩ := List.forall_mem_cons.mp unwired
    have passed : capabilityPass platform order deps item true history =
        (.ok (.next true), []) := by
      simp only [capabilityPass, here]
      rfl
    rw [capabilitiesFrom_cons, passed]
    dsimp only
    rw [List.append_nil, after_nil, ih later]

/-- In an outage the run fails past every candidate, and so it must when it honours one. -/
theorem HonoursClass.exhausted
    (honours : HonoursClass platform order registry wired (first :: tried) candidate rest)
    (split : candidateCapabilities (workRoutingInput order) registry =
      first :: tried ++ candidate :: rest)
    (wiredBefore : ∀ passed ∈ first :: tried, wired passed.id = true)
    (attemptable : Attemptable platform order first) :
    ∃ est history routing more event,
      honour platform order (failingDeps registry wired est) routing candidate rest true history =
        (.ok (exhaustedResult order routing), more ++ [.published event (.ok ())]) ∧
      (more = [] → ∀ item ∈ candidate :: rest, wired item.id = false) := by
  obtain ⟨est, affords⟩ := attemptable.affordable
  obtain ⟨actions, falls⟩ := failingDeps_fallsPast attemptable affords split wiredBefore []
  have same := honours _ _ _ rfl failingDeps_wired falls
  rw [falls.run split, after_inj] at same
  obtain ⟨more, event, ran, silent⟩ := capabilitiesFrom_failing registry wired affords
    (orderRouting order (failingDeps registry wired est)) (candidate :: rest) ([] ++ actions)
  exact ⟨est, _, _, more, event, same.symm.trans ran, silent⟩

/-- The loop honours the class of a candidate exactly when no run can fall past the earlier ones, or
the candidate runs through an adapter, or it stands for the cloud and the run goes there anyway. -/
theorem fallback_honoursClass_iff (platform : Platform) (order : WorkOrder)
    (registry : CapabilityRegistry) (wired : String → Bool)
    (first candidate : RegisteredCapability) (tried rest : List RegisteredCapability)
    (split : candidateCapabilities (workRoutingInput order) registry =
      first :: tried ++ candidate :: rest)
    (wiredBefore : ∀ passed ∈ first :: tried, wired passed.id = true) :
    HonoursClass platform order registry wired (first :: tried) candidate rest ↔
      ¬ Attemptable platform order first ∨ candidate.executionClass.Machine ∨
        candidate.executionClass = .cloudAi ∧ order.needsReasoning = some true ∧
          ∀ later ∈ candidate :: rest, wired later.id = false := by
  constructor
  · intro honours
    by_cases attemptable : Attemptable platform order first
    swap
    · exact .inl attemptable
    obtain ⟨est, history, routing, more, event, same, silent⟩ :=
      honours.exhausted split wiredBefore attemptable
    by_cases human : candidate.executionClass = .human
    · obtain ⟨parked, finished⟩ := @finish_failing platform order registry wired est history
        .taskBlocked (awaitingHuman (routingTo candidate))
      rw [honour_of_done (by rw [firstChoice, if_pos human]), finished, Prod.mk.injEq,
        Except.ok.injEq] at same
      have status := exhaustedResult_status order routing
      rw [← same.1] at status
      cases status
    · cases ai : isAiExecutionClass candidate.executionClass with
      | false => exact .inr (.inl ⟨human, ai⟩)
      | true =>
        obtain ⟨missed, finished⟩ := @modelPath_failing platform order registry wired est history
          candidate.executionClass
        rw [honour_of_done (by rw [firstChoice, if_neg human, if_pos ai]), finished, Prod.mk.injEq,
          Except.ok.injEq] at same
        obtain ⟨reasoned, cloud⟩ := exhaustedResult_eq_modelFailed same.1.symm
        have none_tried : more = [] := by simpa using (congrArg List.length same.2).symm
        exact .inr (.inr ⟨cloud, reasoned, silent none_tried⟩)
  · rintro (unattemptable | machine | ⟨cloud, reasoned, unwired⟩) deps history actions rfl hWired
      falls
    · exact absurd (falls.attemptable split) unattemptable
    · rw [falls.run split, capabilitiesFrom_eq_honour machine]
    · have none_wired : ∀ later ∈ candidate :: rest, deps.capabilityAdapter later.id = none := by
        intro later listed
        simpa [unwired later listed] using hWired later.id
      have chosen : firstChoice platform order deps candidate = (do
          let result ← modelPath platform order deps .cloudAi
          pure (.done result)) := by
        rw [firstChoice, cloud]
        rfl
      rw [falls.run split, capabilitiesFrom_unwired reasoned none_wired, honour_of_done chosen]

end Honours

/-! ### A desk that is passed over -/

def crmApi : RegisteredCapability where
  id := "crm-api"
  executionClass := .deterministic
  provides := ["crm.update"]
  health := .healthy

def crmDesk : RegisteredCapability := { crmApi with id := "crm-desk", executionClass := .human }

def crmBrowser : RegisteredCapability :=
  { crmApi with id := "crm-browser", executionClass := .browser }

def crmFreeOrder : WorkOrder := { crmOrder with budget := none }

/-- A desk of people stands between the API, which is down, and the browser. -/
def crmDeskDeps : OrchestratorDeps :=
  { crmFallbackDeps with workRegistry := { items := [crmApi, crmDesk, crmBrowser] } }

theorem fallback_honoursClass_iff_crm :
    HonoursClass .plain crmFreeOrder crmDeskDeps.workRegistry (fun _ => true) [crmApi] crmDesk
        [crmBrowser] ↔
      ¬ Attemptable .plain crmFreeOrder crmApi ∨ crmDesk.executionClass.Machine ∨
        crmDesk.executionClass = .cloudAi ∧ crmFreeOrder.needsReasoning = some true ∧
          ∀ later ∈ [crmDesk, crmBrowser], (fun _ => true) later.id = false :=
  fallback_honoursClass_iff .plain crmFreeOrder crmDeskDeps.workRegistry (fun _ => true) crmApi
    crmDesk [] [crmBrowser] (by decide) (by simp)

theorem fallback_executes_past_human :
    ¬ ∀ (platform : Platform) (order : WorkOrder) (registry : CapabilityRegistry)
      (wired : String → Bool) (first candidate : RegisteredCapability)
      (tried rest : List RegisteredCapability), order.prefersHuman ≠ some true →
      candidateCapabilities (workRoutingInput order) registry =
        first :: tried ++ candidate :: rest →
      (∀ passed ∈ first :: tried, wired passed.id = true) →
        HonoursClass platform order registry wired (first :: tried) candidate rest := by
  intro honours
  have falls : FallsPast .plain crmFreeOrder crmDeskDeps [] [crmApi] _ :=
    ⟨by simp [PolicyAllows, crmFreeOrder, crmOrder], by decide, by decide, _, _, rfl, rfl, rfl⟩
  have wired : ∀ id, (crmDeskDeps.capabilityAdapter id).isSome = true := by
    intro id
    simp only [OrchestratorDeps.capabilityAdapter, crmDeskDeps, crmFallbackDeps, crmDeps,
      Option.bind_some]
    split <;> rfl
  have same := honours .plain crmFreeOrder crmDeskDeps.workRegistry (fun _ => true) crmApi crmDesk
    [] [crmBrowser] (by decide) (by decide) (by simp) crmDeskDeps [] _ rfl wired falls
  have statuses := congrArg (fun run => run.1.toOption.map (·.status)) same
  revert statuses
  decide

end Donna
