import Donna.Adapters.Construction
import Donna.Orchestrator.Keeps
import Donna.Worker.Deployment
import Donna.Worker.Provenance

/-! The CRM in the deployed system.  What the worker reads from a job has no input for a capability,
and the CRM adapter cannot make a request of no input: its call is rejected before `fetch`.  So the
CRM completes no task, and a completed task is one whose own request asked for reasoning. -/

namespace Donna

open Js JsValue Operation JobQueue Tables Async Async.Program

/-! ### Capabilities that reject their input -/

/-- Every capability that is wired rejects the input of the order, whatever came before. -/
def RejectsInput (order : WorkOrder) (deps : OrchestratorDeps) : Prop :=
  ∀ id adapter, deps.capabilityAdapter id = some adapter → ∃ error, ∀ history,
    adapter.execute history order.capabilityInput (capabilityContext order) = .error error

/-- What a model completes: the order carries a request for it, the router picked an AI class or
fell back to one, and the model is one of the chain. -/
structure CompletedByModel (platform : Platform) (order : WorkOrder) (deps : OrchestratorDeps) :
    Prop where
  requested : order.modelRequest ≠ none
  reasoned : order.needsReasoning = some true ∨
    isAiExecutionClass (orderRouting order deps).executionClass = true
  served : ∃ entry, entry ∈ modelChain platform order deps

/-- An order that is completed is completed by a model. -/
def ModelsComplete (platform : Platform) (order : WorkOrder) (deps : OrchestratorDeps)
    (outcome : Except Thrown WorkOrderResult) : Prop :=
  ∀ result, outcome = .ok result → result.status = .completed →
    CompletedByModel platform order deps

section Rejected

variable {platform : Platform} {order : WorkOrder} {deps : OrchestratorDeps} {history : History}
  {outcome : Except Thrown WorkOrderResult} {actions : List Action}

/-- What holds of every way in which the rest of a program ends, and of every error, holds of the
whole program. -/
theorem wp_bind_of_forall {α ε β γ : Type} {program : Program α ε β} {next : β → Program α ε γ}
    {history : List α} {holds : Except ε γ → Prop} (failed : ∀ error, holds (.error error))
    (rest : ∀ value later, wp (next value) later fun result _ => holds result) :
    wp (program >>= next) history fun result _ => holds result := by
  rw [wp_bind]
  rw [wp]
  rcases (program history).1 with error | value
  · exact failed error
  · exact rest value _

theorem attemptAdapter_of_rejects {candidate : RegisteredCapability}
    {adapter : CapabilityAdapter} {error : Thrown}
    (rejects : ∀ history, adapter.execute history order.capabilityInput (capabilityContext order) =
      .error error) (estimate : Run CostEstimate) (history : History) :
    wp (attemptAdapter platform order deps estimate
      (capabilityBlock platform order deps candidate adapter)) history fun result _ =>
        ∀ attempt, result = .ok attempt → attempt = .overBudget ∨ attempt = .rejected error := by
  have block : ∀ later, wp (capabilityBlock platform order deps candidate adapter) later
      fun result _ => result = .error error := by
    intro later
    rw [capabilityBlock, wp_bind, wp_call]
    simp only [rejects]
  unfold attemptAdapter
  refine wp_bind_of_forall (fun _ _ thrown => by cases thrown) fun allowed later => ?_
  split
  · exact fun attempt same => .inl (Except.ok.inj same).symm
  · -- Either event may be refused by the bus; past them the block is rejected with `error`.
    refine wp_bind_of_forall (fun _ _ thrown => by cases thrown) fun _ later => ?_
    refine wp_bind_of_forall (fun _ _ thrown => by cases thrown) fun _ later => ?_
    rw [wp_bind, wp_attempt]
    refine wp_mono (block later) fun result actions same => ?_
    subst same
    exact fun attempt same => .inr (Except.ok.inj same).symm

theorem modelsComplete_error (error : Thrown) :
    ModelsComplete platform order deps (.error error) := by
  intro result same
  cases same

theorem Closes.modelsComplete {type : EventType} {result : WorkOrderResult}
    (closes : Closes order deps type result outcome actions) (other : result.status ≠ .completed) :
    ModelsComplete platform order deps outcome := by
  rintro given rfl completed
  cases closes
  exact absurd completed other

theorem finish_modelsComplete (type : EventType) {result : WorkOrderResult}
    (other : result.status ≠ .completed) :
    wp (finish platform order deps type result) history fun outcome _ =>
      ModelsComplete platform order deps outcome :=
  wp_mono (finish_spec type result) fun _ _ closes => closes.modelsComplete other

theorem ModelRun.modelsComplete {executionClass : ExecutionClass}
    (run : ModelRun platform order deps executionClass outcome actions)
    (reasoned : order.needsReasoning = some true ∨
      isAiExecutionClass (orderRouting order deps).executionClass = true) :
    ModelsComplete platform order deps outcome := by
  cases run with
  | missingRequest absent closes => exact closes.modelsComplete WorkOrderStatus.noConfusion
  | noEligible unmatched closes => exact closes.modelsComplete WorkOrderStatus.noConfusion
  | exhausted before unwired closes => exact closes.modelsComplete WorkOrderStatus.noConfusion
  | @settled _ _ entry _ _ _ requested split before settles =>
    have wired : entry ∈ wiredModels platform order deps := by simp [split]
    exact fun _ _ _ => ⟨requested, reasoned, entry, (List.mem_filter.mp wired).1⟩

/-- A pass over a capability that rejects its input does not complete the order. -/
theorem capabilityPass_uncompleted (rejects : RejectsInput order deps)
    (candidate : RegisteredCapability) (attempted : Bool) :
    wp (capabilityPass platform order deps candidate attempted) history fun outcome _ =>
      ∀ result, outcome = .ok (.done result) → result.status ≠ .completed := by
  have finished : ∀ {type result later}, result.status ≠ .completed →
      wp (finish platform order deps type result >>= fun result => pure (.done result)) later
        fun (outcome : Except Thrown (Flow Bool WorkOrderResult)) _ =>
          ∀ result, outcome = .ok (.done result) → result.status ≠ .completed := by
    intro type result later other
    rw [wp_bind]
    refine wp_mono (finish_spec type result) ?_
    rintro outcome actions (⟨emits⟩ | ⟨emits⟩)
    · rintro given ⟨⟩
      exact other
    · rintro given ⟨⟩
  unfold capabilityPass
  split
  · rintro result ⟨⟩
  · next adapter wired =>
    obtain ⟨error, rejected⟩ := rejects _ _ wired
    rw [wp_bind]
    refine wp_mono (attemptAdapter_of_rejects rejected _ history) fun outcome actions attempts => ?_
    rcases outcome with thrown | attempt
    · rintro result ⟨⟩
    · rcases attempts attempt rfl with rfl | rfl
      · exact finished WorkOrderStatus.noConfusion
      · dsimp only
        split
        · exact finished WorkOrderStatus.noConfusion
        · rintro result ⟨⟩

theorem capabilityPath_modelsComplete (rejects : RejectsInput order deps)
    (routing : WorkRoutingDecision) :
    wp (capabilityPath platform order deps routing) history fun outcome _ =>
      ModelsComplete platform order deps outcome := by
  have loop : wp (forOf (capabilityPass platform order deps)
      (candidateCapabilities (workRoutingInput order) deps.workRegistry) false) history
        fun ending _ => ∀ result, ending = .ok (.returned result) → result.status ≠ .completed := by
    refine wp_forOf (fun _ _ _ => True) trivial ?_ (by rintro _ _ _ result ⟨⟩)
    intro passed candidate rest attempted actions split _
    refine wp_mono (capabilityPass_uncompleted rejects candidate attempted) ?_
    rintro (error | _ | _ | result) more uncompleted
    · rintro result ⟨⟩
    · trivial
    · rintro result ⟨⟩
    · rintro given ⟨⟩
      exact uncompleted result rfl
  rw [capabilityPath, wp_bind]
  refine wp_mono loop ?_
  rintro (error | attempted | result) actions uncompleted
  · exact modelsComplete_error error
  · dsimp only
    split
    · exact finish_modelsComplete _ WorkOrderStatus.noConfusion
    split
    · exact finish_modelsComplete _ WorkOrderStatus.noConfusion
    · next reasoned =>
      exact wp_mono (modelPath_run .cloudAi) fun _ _ run =>
        run.modelsComplete (.inl (not_not.mp reasoned))
  · rintro given ⟨⟩ completed
    exact absurd completed (uncompleted result rfl)

theorem routeOrder_modelsComplete (rejects : RejectsInput order deps) :
    wp (routeOrder platform order deps) history fun outcome _ =>
      ModelsComplete platform order deps outcome := by
  rw [routeOrder, wp_bind]
  refine wp_mono (emit_spec _) ?_
  rintro (error | ⟨⟩) actions planned
  · exact modelsComplete_error error
  simp only [← orderRouting.eq_1]
  split
  · exact finish_modelsComplete _ WorkOrderStatus.noConfusion
  cases routed : isAiExecutionClass (orderRouting order deps).executionClass with
  | false => exact capabilityPath_modelsComplete rejects _
  | true => exact wp_mono (modelPath_run _) fun _ _ run => run.modelsComplete (.inr routed)

/-- Where no capability takes the input, a run that completes its order completes it by a model. -/
theorem executeWorkOrder_modelsComplete (rejects : RejectsInput order deps) :
    wp (executeWorkOrder platform order deps) history fun outcome _ =>
      ModelsComplete platform order deps outcome := by
  unfold executeWorkOrder
  split
  · exact routeOrder_modelsComplete rejects
  rw [wp_bind, wp_liftTypeError]
  split
  · split
    · exact finish_modelsComplete _ WorkOrderStatus.noConfusion
    · exact finish_modelsComplete _ WorkOrderStatus.noConfusion
    · exact routeOrder_modelsComplete rejects
  · exact modelsComplete_error _

end Rejected

/-! ### What a capability answers -/

/-- Every reply of a capability is what its adapter made of the input of the order. -/
def AdapterReplies (order : WorkOrder) (deps : OrchestratorDeps) (_ : History)
    (actions : List Action) : Prop :=
  ∀ id reply, .executed (.capability id) reply ∈ actions →
    ∃ adapter before, deps.capabilityAdapter id = some adapter ∧
      reply = (adapter.execute before order.capabilityInput (capabilityContext order)).map .output

theorem adapterReplies (order : WorkOrder) (deps : OrchestratorDeps) :
    RunRelation order deps (AdapterReplies order deps) where
  chains := {
    nil := fun _ => by simp [AdapterReplies]
    append := by
      intro history actions more first later id reply listed
      rcases List.mem_append.mp listed with before | after
      · exact first id reply before
      · exact later id reply after }
  published _ _ _ := by simp [AdapterReplies]
  estimated _ _ _ := by simp [AdapterReplies]
  failed := by
    intro candidate adapter wired history error executed id reply listed
    obtain ⟨same, rfl⟩ := Action.executed.inj (List.mem_singleton.mp listed)
    obtain rfl := AdapterRef.capability.inj same
    exact ⟨adapter, history, wired, by rw [executed]; rfl⟩
  capability := by
    intro candidate adapter wired history output executed id reply listed
    rcases List.mem_cons.mp listed with first | other
    · obtain ⟨same, rfl⟩ := Action.executed.inj first
      obtain rfl := AdapterRef.capability.inj same
      exact ⟨adapter, history, wired, by rw [executed]; rfl⟩
    · exact Action.noConfusion (List.mem_singleton.mp other)
  modelFailed _ _ _ := by simp [AdapterReplies]
  model _ _ _ := by simp [AdapterReplies]

/-! ### The adapter of the CRM -/

/-- What the CRM adapter meets: the platform, `fetch` and the clock. -/
structure Network where
  platform : WebPlatform
  fetch : History → FetchCall JsValue → Except Thrown HttpResponse
  elapsed : History → ℚ

section Adapter

variable (network : Network) (token : String) (locationId : Option String)

/-- The HTTP adapter inside the CRM adapter, up to the response to an operation. -/
def ghlHttp : HttpCapability where
  id := "ghl.crm"
  exchange history input ctx := do
    let options : GhlAdapterOptions Url :=
      { token := token, locationId := locationId, baseUrl := ghlBaseUrl }
    let constructed ←
      ghlFetchCall network.platform.language options (input.getD .undefined) ctx ()
    network.fetch history constructed.1
  elapsed := network.elapsed

/-- `GhlCapabilityAdapter`. -/
def ghlAdapter : CapabilityAdapter where
  estimate := (ghlHttp network token locationId).adapter.estimate
  execute history input ctx := do
    let response ← (ghlHttp network token locationId).execute history input ctx
    let op ← (network.platform.language.get (input.getD .undefined) "op").thrown ()
    pure (.object [
      ("op", op.1),
      ("status", response.own "status"),
      ("data", response.own "body")])
  reportUsage := (ghlHttp network token locationId).reportUsage
  classifyError := ghlClassifyError

/-- Without an input the call is rejected where the adapter reads the operation. -/
theorem ghlAdapter_rejects (history : History) (ctx : ExecutionContext) :
    (ghlAdapter network token locationId).execute history none ctx =
      .error (LanguageError.typeError .notAnObject).error := rfl

end Adapter

/-! ### Orders of the worker -/

/-- What the adapters of the deployed worker do: whatever the models do, and the CRM. -/
def Network.vendors (network : Network) (model : ModelBinding → ModelAdapter) : Vendors where
  model := model
  ghl := ghlAdapter network

/-- An order for a model in the cloud. -/
structure AsksForModel (order : WorkOrder) : Prop where
  reasoned : order.needsReasoning = some true
  requested : order.modelRequest ≠ none
  machine : order.prefersHuman ≠ some true
  cloud : order.requireLocal ≠ some true

section Orders

variable {network : Network} {model : ModelBinding → ModelAdapter} {bus : EventBus}
  {env : ProcessEnv} {order : WorkOrder} {platform : Platform}

theorem capabilityInput_of_parsed {payload : JsValue}
    (parsed : parseWorkOrder payload = .ok order) : order.capabilityInput = none := by
  obtain ⟨-, -, -, -, -, -, -, -, -, -, -, -, -, -, -, -, unset⟩ := parseWorkOrder_eq_ok.mp parsed
  exact unset

/-- The one capability that the worker wires is the CRM. -/
theorem capabilityAdapter_deployed {vendors : Vendors} {id : String} {adapter : CapabilityAdapter}
    (wired : (workerDeps vendors bus env).capabilityAdapter id = some adapter) :
    ∃ token, adapter = vendors.ghl token (presentVar (env "GHL_LOCATION_ID")) := by
  rw [OrchestratorDeps.capabilityAdapter, workerDeps, buildCapabilityCatalog] at wired
  cases token : presentVar (env "GHL_TOKEN") with
  | none => simp [token] at wired
  | some token' =>
    simp only [token, Option.map_some, Option.bind_some, CapabilityCatalog.resolver,
      CapabilityCatalog.resolve, CapabilityCatalog.register, OrderedMap.get_set,
      CapabilityCatalog.empty, OrderedMap.get_empty, Option.map_eq_some_iff] at wired
    obtain ⟨entry, found, rfl⟩ := wired
    split at found
    · cases found
      exact ⟨token', rfl⟩
    · cases found

/-- What becomes of an order at the CRM: it has no input for a capability, the construction of a
request from it throws before `fetch`, and so does every call in every run of the order. -/
structure UnsentToCrm (network : Network) (deps : OrchestratorDeps) (order : WorkOrder) : Prop where
  unset : order.capabilityInput = none
  unconstructed : ∀ options : GhlAdapterOptions Url, ∀ ctx,
    ghlFetchCall network.platform.language options (order.capabilityInput.getD .undefined) ctx () =
      .error (LanguageError.typeError .notAnObject).error
  rejected : ∀ platform history,
    wp (executeWorkOrder platform order deps) history fun _ actions =>
      ∀ id reply, .executed (.capability id) reply ∈ actions →
        reply = .error (LanguageError.typeError .notAnObject).error

theorem unsentToCrm_deployed (unset : order.capabilityInput = none) :
    UnsentToCrm network (workerDeps (network.vendors model) bus env).buffered order where
  unset := unset
  unconstructed options ctx := by
    rw [unset]
    rfl
  rejected platform history := by
    refine wp_mono ((adapterReplies order _).keeps_executeWorkOrder history) ?_
    intro outcome actions replies id reply executed
    obtain ⟨adapter, before, wired, rfl⟩ := replies id reply executed
    obtain ⟨token, rfl⟩ := capabilityAdapter_deployed wired
    rw [unset]
    exact congrArg (Except.map .output) (ghlAdapter_rejects network token _ before _)

theorem rejectsInput_deployed (unset : order.capabilityInput = none) :
    RejectsInput order (workerDeps (network.vendors model) bus env).buffered := by
  intro id adapter wired
  obtain ⟨token, rfl⟩ := capabilityAdapter_deployed wired
  refine ⟨(LanguageError.typeError .notAnObject).error, fun history => ?_⟩
  rw [unset]
  exact ghlAdapter_rejects network token _ history _

theorem routeWork_served (machine : order.prefersHuman ≠ some true)
    (served : ServedByCrm env order) {vendors : Vendors} :
    (orderRouting order (workerDeps vendors bus env).buffered).executionClass = .automation := by
  have listed : (workerDeps vendors bus env).workRegistry.healthyProviding
      order.requiredCapabilities = [ghlCapability] := by
    rw [healthyProviding_workRegistry]
    exact if_pos served
  show (routeWork (workRoutingInput order)
    (workerDeps vendors bus env).workRegistry).executionClass = .automation
  simp [routeWork, workRoutingInput, machine, listed, ghlCapability]

/-- An order that the deployed worker completes asks for a model in the cloud. -/
theorem completed_asksForModel {history : History} {result : WorkOrderResult}
    {actions : List Action} (unset : order.capabilityInput = none)
    (run : executeWorkOrder platform order
      (workerDeps (network.vendors model) bus env).buffered history = (.ok result, actions))
    (completed : result.status = .completed) : AsksForModel order := by
  let deps := (workerDeps (network.vendors model) bus env).buffered
  have unparked : (orderRouting order deps).executionClass ≠ .human := by
    intro human
    have parked := (parked_of_human BufferingEventBus.resolves (.of_run run) human).2 result rfl
    simp [Parked, completed] at parked
  have machine : order.prefersHuman ≠ some true := fun prefers =>
    unparked (routeWork_deployed (.inl prefers))
  have rejects : RejectsInput order deps := rejectsInput_deployed unset
  have whole : wp (executeWorkOrder platform order deps) history fun outcome _ =>
      ModelsComplete platform order deps outcome := executeWorkOrder_modelsComplete rejects
  rw [wp, run] at whole
  obtain ⟨requested, reasoned, entry, inChain⟩ := whole result rfl completed
  refine ⟨?_, requested, machine, fun required => ?_⟩
  · rcases reasoned with reasoned | ai
    · exact reasoned
    · by_contra unreasoned
      by_cases served : ServedByCrm env order
      · rw [routeWork_served machine served] at ai
        cases ai
      · exact unparked (routeWork_deployed (.inr ⟨served, unreasoned⟩))
  · obtain ⟨listed, serves⟩ := modelChain_serves inChain
    have isLocal := serves.1.locality required
    rw [(available_modelRegistry listed serves.1.available).1] at isLocal
    cases isLocal

end Orders

/-! ### Every run -/

/-- What a handler has completed asked for a model. -/
def Progress.Modelled : Progress → Prop
  | .ran order _ result _ => result.status = .completed → AsksForModel order
  | _ => True

/-- Each task that is completed was asked for by a request whose order asks for a model. -/
def CompletedAsked (uuid : UuidType) (history : List Request) (world : DurableWorld) : Prop :=
  ∀ row ∈ world.queue.db.tasks, row.status = .completed → ∃ request ∈ history, ∃ order,
    RequestedTask uuid world.objectives request row (.ok order) ∧ AsksForModel order

section Runs

variable {realm : Realm} {uuid : UuidType} {network : Network}
  {model : ModelBinding → ModelAdapter} {bus : EventBus} {env : ProcessEnv}
  {history : List Request} {world : DurableWorld} {queue queue' : QueueWorld}

/-- What a worker or the queue does keeps what the handlers hold. -/
theorem BackgroundStep.modelled (unique : Unique (·.jobKey) queue.jobs)
    (modelled : AllRunning Progress.Modelled queue.jobs)
    (step : BackgroundStep (workerDeps (network.vendors model) bus env) queue queue') :
    AllRunning Progress.Modelled queue'.jobs := by
  cases step with
  | worked step =>
    cases step with
    | took key payload moves | publishedAll key payload moves =>
      exact modelled.move moves (by rintro _ ⟨⟩; trivial)
    | ran key payload platform history parsed run task moves =>
      refine modelled.move moves ?_
      rintro _ ⟨⟩ completed
      exact completed_asksForModel (capabilityInput_of_parsed parsed) run completed
    | ranAdHoc key payload platform history parsed run task moves =>
      exact modelled.move moves (by rintro _ ⟨⟩; trivial)
    | published key payload moves => exact modelled.move moves (by rintro _ ⟨⟩; trivial)
    | committed key payload moment run moves =>
      refine (modelled.move moves (by rintro _ ⟨⟩; trivial)).addCalls ?_
      exact moves.unique unique (by rintro _ ⟨⟩; rfl)
    | returned key payload moves => exact modelled.replace moves fun _ gone => nomatch gone
  | failed key payload progress moves | redelivered key payload progress moves =>
    exact modelled.move moves fun _ running => nomatch running

theorem result_of_committed {moment : Moment} {row : TaskRow} {order : WorkOrder}
    {result : WorkOrderResult} {actions : List Action}
    (completed : (committedRow moment (workerCommit order row.id result actions) row).status =
      .completed) : result.status = .completed := by
  have status : committedStatus (workerCommit order row.id result actions) row = .completed :=
    completed
  rw [committedStatus] at status
  split at status
  · cases status
  · have target : (targetStatusForResult result.status).status = .completed := status
    cases reached : result.status <;> rw [reached] at target <;> cases target

/-- A row that is completed was completed before, or is completed by a handler whose order asks
for a model. -/
theorem StepEffect.completed (modelled : AllRunning Progress.Modelled queue.jobs)
    (effect : StepEffect queue queue') {row : TaskRow} (listed : row ∈ queue'.db.tasks)
    (completed : row.status = .completed) : row ∈ queue.db.tasks ∨
      ∃ before ∈ queue.db.tasks, row.Continues before ∧ ∃ job ∈ queue.jobs, ∃ order,
        parseWorkOrder job.payload = .ok order ∧ order.taskId = some row.id ∧
        AsksForModel order := by
  cases effect with
  | refused | moved => exact .inl listed
  | created draws input principal free tasks events =>
    rw [tasks] at listed
    rcases List.mem_append.mp listed with before | new
    · exact .inl before
    · obtain rfl := List.mem_singleton.mp new
      cases completed
  | @committed _ _ key payload moment about order result actions parsed task organization hAbout
      pending writes moves =>
    rw [writes.tasks] at listed
    obtain ⟨before, hBefore, rfl⟩ := List.mem_map.mp listed
    split at completed
    · next same =>
      obtain rfl := queue.db.eq_of_id hBefore hAbout same
      rw [if_pos same]
      exact .inr ⟨before, hBefore, rfl, _, moves.mem, order, parsed, task,
        modelled _ moves.mem _ rfl (result_of_committed completed)⟩
    · next other =>
      rw [if_neg other]
      exact .inl hBefore

theorem CompletedAsked.background (asked : CompletedAsked uuid history world)
    (all : AllRequested uuid history world) (inv : DeployedInvariant world.queue)
    (modelled : AllRunning Progress.Modelled world.queue.jobs)
    (effect : StepEffect world.queue queue') :
    CompletedAsked uuid history ⟨world.objectives, queue'⟩ := by
  intro row listed completed
  rcases effect.completed modelled listed completed with
    before | ⟨before, hBefore, continues, job, hJob, order, parsed, task, asks⟩
  · exact asked row before completed
  · obtain ⟨request, hRequest, read, hAsked, alike⟩ := all before hBefore
    have id : row.id = before.id := by rw [continues]
    have named := ((inv.sound job hJob).own_taskId parsed task).1
    obtain rfl : read = .ok order := (alike job hJob (id ▸ named)).symm.trans parsed
    exact ⟨request, hRequest, order, hAsked.continue (List.Subset.refl _) continues, asks⟩

theorem CompletedAsked.requested (asked : CompletedAsked uuid history world) (request : Request) :
    CompletedAsked uuid (history ++ [request]) (world.serve realm uuid request) := by
  obtain ⟨grown, -, rows⟩ :=
    (answer_tableEffect realm uuid world.objectives world.queue.db request).grows
  intro row listed completed
  have before : row ∈ world.queue.db.tasks := by
    rcases rows row listed with before | pending
    · exact before
    · rw [completed] at pending
      cases pending
  obtain ⟨earlier, hEarlier, order, hAsked, asks⟩ := asked row before completed
  exact ⟨earlier, List.mem_append_left _ hEarlier, order, hAsked.continue grown rfl, asks⟩

end Runs

/-- However requests and workers of the deployed system interleave, from tables without tasks on,
and whatever the CRM would answer: no order that a job reads as is ever sent to it; and a task that
is completed was asked for by a request whose order needs reasoning, carries a request for a model,
and may leave for the cloud. -/
theorem completed_asked (realm : Realm) (uuid : UuidType) (network : Network)
    (model : ModelBinding → ModelAdapter) (bus : EventBus) (env : ProcessEnv)
    (start : DurableWorld) (empty : start.queue.db.tasks = [])
    (unlogged : start.queue.db.events = []) (idle : start.queue.jobs = [])
    (history : List Request) (world : DurableWorld)
    (run : DurableRun realm uuid (workerDeps (network.vendors model) bus env) start history
      world) :
    (∀ job ∈ world.queue.jobs, ∀ order, parseWorkOrder job.payload = .ok order →
      UnsentToCrm network (workerDeps (network.vendors model) bus env).buffered order) ∧
    CompletedAsked uuid history world := by
  have first : DeployedInvariant start.queue := by
    obtain ⟨objectives, db, jobs⟩ := start
    obtain rfl : jobs = [] := idle
    exact .start empty unlogged
  have whole : AllRunning Progress.Modelled world.queue.jobs ∧
      CompletedAsked uuid history world := by
    induction run with
    | start => exact ⟨by simp [AllRunning, idle], by simp [CompletedAsked, empty]⟩
    | @requested history world earlier request ih =>
      have inv := (earlier.requested_all first empty).1
      exact ⟨ih.1.addCalls inv.unique, ih.2.requested request⟩
    | background earlier step ih =>
      obtain ⟨inv, all⟩ := earlier.requested_all first empty
      exact ⟨step.modelled inv.unique ih.1,
        ih.2.background all inv ih.1 (DeployedStep.effect inv (.background step))⟩
  exact ⟨fun _ _ _ parsed => unsentToCrm_deployed (capabilityInput_of_parsed parsed), whole.2⟩

/-- A network on which the CRM accepts every request. -/
def openNetwork : Network where
  platform := .plain
  fetch _ _ := .ok { status := 200, ok := true, headers := [], body := .null }
  elapsed _ := 0

def draft : ModelResult where
  text := "Merged"
  usage :=
    { inputTokens := 1, cachedInputTokens := none, outputTokens := 1, costUsd := 1, latencyMs := 0 }

/-- A model that answers every request. -/
def draftingModel : ModelAdapter where
  estimate _ _ _ := .ok { costUsd := 1, latencyMs := 0, confidence := 1 }
  execute _ _ _ := .ok draft
  classifyError _ := .unknown

/-- The deployed worker, where the CRM is configured. -/
def draftingDeps : OrchestratorDeps :=
  workerDeps (openNetwork.vendors fun _ => draftingModel) BufferingEventBus
    fun name => if name = "GHL_TOKEN" then some "pit-0" else none

/-- A task for the CRM, which a model may take over. -/
def acmeReasonedRequest : Request where
  draws := crmDraws "task-1"
  auth := .authenticated acmePrincipal
  route := .postTasks "7d3f6f0e-2f7c-4b0a-9c66-0b8f6f6f0a04" (.object [
    ("goal", .string "Merge the duplicates"),
    ("definitionOfDone", .string "One record for each contact"),
    ("requiredCapabilities", .array [.string "crm"]),
    ("needsReasoning", .boolean true),
    ("modelRequest", .object [("messages", .array [.object [
      ("role", .string "user"),
      ("content", .string "Merge the duplicates")]])])])

def acmeReasoned : DurableWorld :=
  (acmeStart.serve .plain acmeIds acmeObjectiveRequest).serve .plain acmeIds acmeReasonedRequest

def acmeReasonedOrder : WorkOrder where
  organizationId := acmePrincipal.organizationId
  taskId := some "task-1"
  requiredCapabilities := ["crm"]
  needsReasoning := some true
  modelRequest := some {
    messages := [{ role := "user", content := "Merge the duplicates" }]
    maxOutputTokens := none
    reasoningTier := none }

def acmeReasonedJob (state : JobState Progress) : Job JsValue Progress :=
  ⟨.attached "task-1", acmeReasonedOrder.toJs.jsonClone, state⟩

def acmeReasonedRun : Except Thrown WorkOrderResult × List Action :=
  executeWorkOrder .plain acmeReasonedOrder draftingDeps.buffered []

def acmeReasonedQueue : QueueWorld where
  db := (commitOutcome ⟨(crmDraws "task-1").event, 0⟩ (workerCommit acmeReasonedOrder "task-1"
    (modelCompleted .cloudAi modelRegistry[1] draft) acmeReasonedRun.2) acmeReasoned.queue.db).2
  jobs := [acmeReasonedJob (.running .finished)]

/-- The CRM rejects the order, and a model completes it. -/
theorem acmeReasoned_completes : DurableRun .plain acmeIds draftingDeps acmeStart
    [acmeObjectiveRequest, acmeReasonedRequest] ⟨acmeReasoned.objectives, acmeReasonedQueue⟩ := by
  let result := modelCompleted .cloudAi modelRegistry[1] draft
  let db := acmeReasoned.queue.db
  have asked : DurableRun .plain acmeIds draftingDeps acmeStart
      [acmeObjectiveRequest, acmeReasonedRequest] acmeReasoned :=
    .requested (.requested .start acmeObjectiveRequest) acmeReasonedRequest
  have took : WorkerStep draftingDeps acmeReasoned.queue
      ⟨db, [acmeReasonedJob (.running .taken)]⟩ := .took _ _ (.intro [] [])
  have ran : WorkerStep draftingDeps ⟨db, [acmeReasonedJob (.running .taken)]⟩
      ⟨db, [acmeReasonedJob (.running
        (.ran acmeReasonedOrder "task-1" result acmeReasonedRun.2))]⟩ :=
    .ran _ _ .plain [] rfl rfl rfl (.intro [] [])
  have committed : WorkerStep draftingDeps
      ⟨db, [acmeReasonedJob (.running
        (.ran acmeReasonedOrder "task-1" result acmeReasonedRun.2))]⟩ acmeReasonedQueue :=
    .committed _ _ ⟨(crmDraws "task-1").event, 0⟩ rfl (.intro [] [])
  have first := DurableRun.background asked (.worked took)
  have second := DurableRun.background first (.worked ran)
  have third := DurableRun.background second (.worked committed)
  exact third

theorem completed_asked_acme :
    (∃ row ∈ acmeReasonedQueue.db.tasks, row.status = .completed) ∧
      (∀ job ∈ acmeReasonedQueue.jobs, ∀ order, parseWorkOrder job.payload = .ok order →
        UnsentToCrm openNetwork draftingDeps.buffered order) ∧
      CompletedAsked acmeIds [acmeObjectiveRequest, acmeReasonedRequest]
        ⟨acmeReasoned.objectives, acmeReasonedQueue⟩ :=
  ⟨⟨_, List.mem_singleton_self _, rfl⟩, completed_asked .plain acmeIds openNetwork
    (fun _ => draftingModel) BufferingEventBus
    (fun name => if name = "GHL_TOKEN" then some "pit-0" else none) acmeStart rfl rfl rfl _ _
    acmeReasoned_completes⟩

end Donna
