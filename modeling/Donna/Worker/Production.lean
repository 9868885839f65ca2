import Donna.ControlPlane.Process
import Donna.Worker.Provenance

/-! The system in production: one database under the webhook of the identity provider, the routes of
the API and the workers.  However they interleave, the tasks are those that were asked for and
accepted, by people who held a membership when they asked. -/

namespace Donna

open Js JsValue JobQueue Tables Machine TenancyDatabase

/-! ### One database -/

/-- The tables of the system.  The objectives refer to the tenancy tables beside them. -/
structure SystemWorld where
  tenancy : TenancyDatabase
  durable : DurableWorld
  shared : durable.objectives.tenancy = tenancy.toTenancyTables

namespace SystemWorld

/-- The tables after the migrations. -/
def migrated : SystemWorld where
  tenancy := .empty
  durable := ⟨.empty TenancyDatabase.empty.toTenancyTables, ⟨⟨[], [], [], List.nodup_nil⟩, []⟩⟩
  shared := rfl

variable (world : SystemWorld)

/-- The world with other tenancy tables, which the foreign keys of the objectives may refuse. -/
def withTenancy (tenancy : TenancyDatabase) : Option SystemWorld :=
  if refers : ∀ row ∈ world.durable.objectives.objectives,
      row.References tenancy.toTenancyTables then
    some {
      tenancy := tenancy
      durable := ⟨{ world.durable.objectives with
        tenancy := tenancy.toTenancyTables
        references := refers }, world.durable.queue⟩
      shared := rfl }
  else none

/-- The world after a step of the workers or the queue. -/
def withQueue (queue : QueueWorld) : SystemWorld where
  tenancy := world.tenancy
  durable := ⟨world.durable.objectives, queue⟩
  shared := world.shared

end SystemWorld

theorem DurableWorld.serve_tenancy (realm : Realm) (uuid : UuidType) (world : DurableWorld)
    (request : Request) :
    (world.serve realm uuid request).objectives.tenancy = world.objectives.tenancy := by
  have effect := answer_tableEffect realm uuid world.objectives world.queue.db request
  unfold DurableWorld.serve
  generalize answer realm (durableDeps uuid request.draws) request.auth request.route
    (world.objectives, world.queue.db) = served at effect
  obtain ⟨answered, tables⟩ := served
  cases effect with
  | kept unqueued tenancy grown => exact tenancy
  | dispatched => rfl

/-- The world after a request of the API. -/
def SystemWorld.requested (realm : Realm) (uuid : UuidType) (world : SystemWorld)
    (request : Request) : SystemWorld where
  tenancy := world.tenancy
  durable := world.durable.serve realm uuid request
  shared := (world.durable.serve_tenancy realm uuid request).trans world.shared

section System

variable (realm : Realm) (uuid : UuidType) (config : StartupConfig)

/-- One call to a process of the system that started with `config`. -/
def serveSystem (world : SystemWorld) : HttpCall → Except HandlerError Response × SystemWorld
  | .webhook draws svix request =>
    match config.webhookSecret with
    | none => (.ok webhookNotFound, world)
    | some secret =>
      let (outcome, tenancy) := clerkWebhook secret svix draws request world.tenancy
      match world.withTenancy tenancy with
      | none => (.error .statementRefused, world)
      | some after => (outcome, after)
  | .api draws jwtVerify headers route =>
    let auth := authenticateWith config.auth jwtVerify world.tenancy headers
    let (outcome, _) := answer realm (durableDeps uuid draws) auth route
      (world.durable.objectives, world.durable.queue.db)
    (outcome.mapError .thrown, world.requested realm uuid ⟨draws, auth, route⟩)

/-- A call with its answer, and with the tables before and after it. -/
abbrev SystemVisit := Visit SystemWorld HttpCall (Except HandlerError Response)

/-- The runs of the system from its migration on: the calls so far, and the tables. -/
inductive SystemRun (deps : OrchestratorDeps) : List SystemVisit → SystemWorld → Prop
  | migrated : SystemRun deps [] .migrated
  | called {log world} (earlier : SystemRun deps log world) (call : HttpCall) :
      SystemRun deps (log ++ [visit (serveSystem realm uuid config) world call])
        (serveSystem realm uuid config world call).2
  | background {log world queue'} (earlier : SystemRun deps log world)
      (step : BackgroundStep deps world.durable.queue queue') :
      SystemRun deps log (world.withQueue queue')

/-- The event that a call delivers, unless the database refuses it. -/
def delivered (item : SystemVisit) : Option (ProvisioningDraws × ClerkEvent) :=
  match item.output with
  | .error .statementRefused => none
  | _ => delivery config item.input

/-- The request that a call makes, with what its credentials come to. -/
def requestOf (item : SystemVisit) : Option Request :=
  match item.input with
  | .webhook _ _ _ => none
  | .api draws jwtVerify headers route =>
    some ⟨draws, authenticateWith config.auth jwtVerify item.before.tenancy headers, route⟩

end System

section Runs

variable {realm : Realm} {uuid : UuidType} {config : StartupConfig} {deps : OrchestratorDeps}
  {world after : SystemWorld} {log : List SystemVisit}

/-! ### The tenancy tables -/

theorem SystemWorld.withTenancy_eq_some {tenancy : TenancyDatabase}
    (moved : world.withTenancy tenancy = some after) :
    after.tenancy = tenancy ∧
      after.durable.objectives.objectives = world.durable.objectives.objectives ∧
      after.durable.queue = world.durable.queue := by
  unfold SystemWorld.withTenancy at moved
  split at moved
  · obtain rfl := Option.some.inj moved
    exact ⟨rfl, rfl, rfl⟩
  · cases moved

theorem handle_refused {draws : ProvisioningDraws} {db : TenancyDatabase} {event : ClerkEvent}
    {error : ProvisioningError} (refused : (handle draws db event).1 = .error error) :
    (handle draws db event).2 = db := by
  unfold handle at refused ⊢
  split at refused
  · cases refused
  · rfl

/-- A webhook call that the database refuses leaves the tables as they were. -/
theorem clerkWebhook_refused {secret : String} {svix : SvixVerify} {draws : ProvisioningDraws}
    {request : WebhookRequest} {db : TenancyDatabase}
    (refused : (clerkWebhook secret svix draws request db).1 = .error .statementRefused) :
    (clerkWebhook secret svix draws request db).2 = db := by
  unfold clerkWebhook at refused ⊢
  split at refused
  · cases refused
  · cases refused
  · split at refused
    · cases refused
    · next event parsed =>
      have unchanged := fun error => @handle_refused draws db event error
      split at refused
      · cases refused
      · cases refused
      · next after handled =>
        rw [handled] at unchanged
        exact unchanged _ rfl

theorem serveSystem_webhook {secret : String} (given : config.webhookSecret = some secret)
    (svix : SvixVerify) (draws : ProvisioningDraws) (request : WebhookRequest) :
    serveSystem realm uuid config world (.webhook draws svix request) =
      match world.withTenancy (clerkWebhook secret svix draws request world.tenancy).2 with
      | none => (.error .statementRefused, world)
      | some after => ((clerkWebhook secret svix draws request world.tenancy).1, after) := by
  rw [serveSystem, given]

/-- A call changes the tenancy tables as the event that it delivers does. -/
theorem serveSystem_tenancy (call : HttpCall) :
    (serveSystem realm uuid config world call).2.tenancy =
      final provision world.tenancy
        (delivered config (visit (serveSystem realm uuid config) world call)).toList := by
  cases call with
  | api draws jwtVerify headers route =>
    unfold delivered
    split <;> rfl
  | webhook draws svix request =>
    cases given : config.webhookSecret with
    | none => simp [delivered, visit, serveSystem, delivery, given, final]
    | some secret =>
      rw [delivered, visit, delivery, given, serveSystem_webhook given]
      have tables := clerkWebhook_tables secret svix draws request world.tenancy
      have refused := @clerkWebhook_refused secret svix draws request world.tenancy
      generalize clerkWebhook secret svix draws request world.tenancy = ran at tables refused ⊢
      cases moved : world.withTenancy ran.2 with
      | none => rfl
      | some after =>
        dsimp only
        rw [(SystemWorld.withTenancy_eq_some moved).1]
        split
        · next unapplied => exact refused unapplied
        · exact tables

/-- The tenancy tables of a run are those of the events that were delivered. -/
theorem SystemRun.tenancy (run : SystemRun realm uuid config deps log world) :
    world.tenancy = final provision .empty (log.filterMap (delivered config)) := by
  induction run with
  | migrated => rfl
  | called earlier call ih =>
    rw [serveSystem_tenancy, ih, ← final_append, List.filterMap_append, List.filterMap_cons]
    split <;> next found => rw [found]; rfl
  | background earlier step ih => exact ih

/-- A run was at the tables of each of its calls after the calls before it. -/
theorem SystemRun.split (run : SystemRun realm uuid config deps log world)
    {earlier later : List SystemVisit} {item : SystemVisit}
    (here : log = earlier ++ item :: later) :
    SystemRun realm uuid config deps earlier item.before ∧
      item = visit (serveSystem realm uuid config) item.before item.input := by
  induction run generalizing later with
  | migrated => simp at here
  | @called log world run call ih =>
    rcases List.eq_nil_or_concat later with rfl | ⟨rest, last, rfl⟩
    · obtain ⟨rfl, same⟩ := List.append_inj' here rfl
      obtain rfl := List.singleton_inj.mp same
      exact ⟨run, rfl⟩
    · rw [List.concat_eq_append, ← List.cons_append, ← List.append_assoc] at here
      exact ih (List.append_inj' here rfl).1
  | background run step ih => exact ih here

/-! ### The requests -/

/-- A webhook call leaves the objectives, the queue and the tasks alone. -/
theorem serveSystem_webhook_durable (draws : ProvisioningDraws) (svix : SvixVerify)
    (request : WebhookRequest) :
    (serveSystem realm uuid config world (.webhook draws svix request)).2.durable.queue =
        world.durable.queue ∧
      (serveSystem realm uuid config world
        (.webhook draws svix request)).2.durable.objectives.objectives =
        world.durable.objectives.objectives := by
  cases given : config.webhookSecret with
  | none => simp [serveSystem, given]
  | some secret =>
    rw [serveSystem_webhook given]
    cases moved : world.withTenancy
        (clerkWebhook secret svix draws request world.tenancy).2 with
    | none => exact ⟨rfl, rfl⟩
    | some after =>
      obtain ⟨-, objectives, queue⟩ := SystemWorld.withTenancy_eq_some moved
      exact ⟨queue, objectives⟩

theorem AllRequested.of_objectives {history : List Request} {before later : DurableWorld}
    (asked : AllRequested uuid history before) (queue : later.queue = before.queue)
    (objectives : later.objectives.objectives = before.objectives.objectives) :
    AllRequested uuid history later := by
  intro row listed
  rw [queue] at listed ⊢
  obtain ⟨request, hRequest, read, hAsked, alike⟩ := asked row listed
  exact ⟨request, hRequest, read, hAsked.continue (by rw [objectives]; exact .refl _) rfl, alike⟩

theorem SystemRun.requested (run : SystemRun realm uuid config deps log world) :
    DeployedInvariant world.durable.queue ∧
      AllRequested uuid (log.filterMap (requestOf config)) world.durable := by
  induction run with
  | migrated => exact ⟨.start rfl rfl, by simp [AllRequested, SystemWorld.migrated]⟩
  | @called log world earlier call ih =>
    obtain ⟨inv, asked⟩ := ih
    rw [List.filterMap_append]
    cases call with
    | webhook draws svix request =>
      obtain ⟨queue, objectives⟩ := @serveSystem_webhook_durable realm uuid config world draws svix
        request
      refine ⟨queue ▸ inv, ?_⟩
      show AllRequested uuid (_ ++ []) _
      rw [List.append_nil]
      exact asked.of_objectives queue objectives
    | api draws jwtVerify headers route => exact asked.requested inv deps _
  | background earlier step ih =>
    exact ⟨ih.1.step (.background step), ih.2.background ih.1 step⟩

/-! ### The answers -/

theorem mapError_eq_ok {ε ε' α : Type} {f : ε → ε'} {result : Except ε α} {value : α}
    (mapped : result.mapError f = .ok value) : result = .ok value := by
  cases result with
  | error error => cases mapped
  | ok found => exact congrArg _ (Except.ok.inj mapped)

theorem queued_task_id {result result' : DispatchResult} (same : queued result = queued result') :
    result.task.id = result'.task.id := by
  have body := congrArg (fun response => (response.body.own "task").own "id") same
  simpa [queued, Task.toJs, present] using body

/-- A request that is answered `queued` has left a row for its task. -/
theorem DurableWorld.serve_accepted {durable : DurableWorld} {request : Request}
    {result : DispatchResult} (accepted : (answer realm (durableDeps uuid request.draws)
      request.auth request.route (durable.objectives, durable.queue.db)).1 = .ok (queued result)) :
    ∃ row ∈ (durable.serve realm uuid request).queue.db.tasks, row.id = result.task.id := by
  have effect := answer_tableEffect realm uuid durable.objectives durable.queue.db request
  unfold DurableWorld.serve
  generalize answer realm (durableDeps uuid request.draws) request.auth request.route
    (durable.objectives, durable.queue.db) = served at effect accepted ⊢
  obtain ⟨answered, tables⟩ := served
  cases effect with
  | kept unqueued tenancy grown =>
    rw [show answered = _ from accepted, isQueued_queued] at unqueued
    cases unqueued
  | @dispatched draws principal id body _ _ _ _ input wellFormed same listed under =>
    rcases dispatch_cases draws input principal durable.queue.db with
      ⟨-, refused⟩ | ⟨free, after, ran, tasks, events, jobs⟩
    · rw [refused] at accepted
      cases accepted
    · rw [ran] at accepted ⊢
      have id := queued_task_id (Except.ok.inj accepted)
      refine ⟨taskToRow draws.now (newTask draws.recordId input) principal.organizationId
        input.requiredCapabilities, ?_, id⟩
      show _ ∈ after.tasks
      rw [tasks]
      exact List.mem_append_right _ (List.mem_singleton_self _)

theorem clerkWebhook_unqueued {secret : String} {svix : SvixVerify} {draws : ProvisioningDraws}
    {request : WebhookRequest} {db : TenancyDatabase} (result : DispatchResult) :
    (clerkWebhook secret svix draws request db).1 ≠ .ok (queued result) := by
  have code : ∀ response, (clerkWebhook secret svix draws request db).1 = .ok response →
      response.code ≠ 202 := by
    intro response answered
    unfold clerkWebhook at answered
    split at answered
    · cases answered
      simp [errorResponse]
    · cases answered
    · split at answered
      · cases answered
        simp [errorResponse]
      · split at answered <;> cases answered <;> simp [errorResponse]
  exact fun answered => code _ answered rfl

/-- Only a request of the API is answered `queued`. -/
theorem serveSystem_unqueued (draws : ProvisioningDraws) (svix : SvixVerify)
    (request : WebhookRequest) (result : DispatchResult) :
    (serveSystem realm uuid config world (.webhook draws svix request)).1 ≠
      .ok (queued result) := by
  cases given : config.webhookSecret with
  | none =>
    rw [serveSystem, given]
    intro same
    have code : (404 : ℕ) = 202 := congrArg Response.code (Except.ok.inj same)
    omega
  | some secret =>
    rw [serveSystem_webhook given]
    split
    · exact fun same => nomatch same
    · exact clerkWebhook_unqueued result

theorem SystemRun.accepted (run : SystemRun realm uuid config deps log world) :
    ∀ item ∈ log, ∀ result, item.output = .ok (queued result) →
      ∃ row ∈ world.durable.queue.db.tasks, row.id = result.task.id := by
  induction run with
  | migrated => simp
  | @called log world earlier call ih =>
    intro item listed result answered
    rcases List.mem_append.mp listed with before | now
    · obtain ⟨row, hRow, id⟩ := ih item before result answered
      cases call with
      | webhook draws svix request =>
        obtain ⟨queue, -⟩ := @serveSystem_webhook_durable realm uuid config world draws svix request
        exact ⟨row, queue ▸ hRow, id⟩
      | api draws jwtVerify headers route =>
        obtain ⟨-, kept, -⟩ := (answer_tableEffect realm uuid world.durable.objectives
          world.durable.queue.db
          ⟨draws, authenticateWith config.auth jwtVerify world.tenancy headers, route⟩).grows
        exact ⟨row, kept hRow, id⟩
    · obtain rfl := List.mem_singleton.mp now
      cases call with
      | webhook draws svix request =>
        exact absurd answered (serveSystem_unqueued draws svix request result)
      | api draws jwtVerify headers route =>
        exact DurableWorld.serve_accepted (mapError_eq_ok answered)
  | background earlier step ih =>
    intro item listed result answered
    obtain ⟨row, hRow, id⟩ := ih item listed result answered
    have effect := DeployedStep.effect earlier.requested.1 (.background step)
    obtain ⟨row', hRow', id', -⟩ := effect.rows row hRow
    exact ⟨row', hRow', id'.trans id⟩

end Runs

/-! ### Work as it was asked for -/

/-- A call asked for the task of a row, and for the order that its jobs read as: its credentials
proved a subject with the second factor, who was then a member by an event that had granted it and
that none had withdrawn, and who may act under the objective. -/
inductive AskedInProduction (env : ProcessEnv) (uuid : UuidType) (config : StartupConfig)
    (log : List SystemVisit) (world : SystemWorld) (row : TaskRow) : Prop
  | intro {earlier item later draws jwtVerify headers id body subject principal clerkOrgId read}
      (called : log = earlier ++ item :: later)
      (input : item.input = .api draws jwtVerify headers (.postTasks id body))
      (proves : ProvesInProduction env jwtVerify headers subject)
      (found : resolve item.before.tenancy subject = some principal)
      (inOrg : item.before.tenancy.clerkOrgOf principal.organizationId = some clerkOrgId)
      (granted : Since (·.Grants subject clerkOrgId principal.role)
        (·.Withdraws subject clerkOrgId)
        (acceptedCalls .empty (earlier.filterMap (delivered config))))
      (asked : RequestedTask uuid world.durable.objectives
        ⟨draws, .authenticated principal, .postTasks id body⟩ row read)
      (alike : ReadAs read row.id world.durable.queue.jobs)

structure WorkAsAsked (env : ProcessEnv) (uuid : UuidType) (config : StartupConfig)
    (log : List SystemVisit) (world : SystemWorld) : Prop where
  asked : ∀ row ∈ world.durable.queue.db.tasks, AskedInProduction env uuid config log world row
  jobs : ∀ job ∈ world.durable.queue.jobs, ∃ row ∈ world.durable.queue.db.tasks,
    OrderFor job.payload row
  accepted : ∀ item ∈ log, ∀ result, item.output = .ok (queued result) →
    ∃ row ∈ world.durable.queue.db.tasks, row.id = result.task.id

/-- However signed events, requests and workers interleave in production, from the migrated tables
on: the tasks are those of the requests that were accepted, none lost and none added, and each was
asked for by a person who had proved a second factor and held a membership, under an objective of
that tenant whose boundary admits the person; and every job is for such a task, and reads as the
order that was asked for. -/
theorem production_work (realm : Realm) (uuid : UuidType) (deps : OrchestratorDeps)
    (boot : Boot) (env : ProcessEnv) (config : StartupConfig)
    (started : startup boot env = .ok config) (production : config.appEnv = .production)
    (log : List SystemVisit) (world : SystemWorld)
    (run : SystemRun realm uuid config deps log world) :
    WorkAsAsked env uuid config log world := by
  obtain ⟨inv, requested⟩ := run.requested
  refine ⟨fun row listed => ?_, fun job listed => ?_, run.accepted⟩
  · obtain ⟨request, hRequest, read, asked, alike⟩ := requested row listed
    obtain ⟨item, hItem, made⟩ := List.mem_filterMap.mp hRequest
    obtain ⟨earlier, later, called⟩ := List.append_of_mem hItem
    obtain ⟨before, -⟩ := run.split called
    cases asked with
    | @intro draws principal id body _ _ _ row input objective wellFormed same hListed under
        continues =>
      unfold requestOf at made
      split at made
      · cases made
      · next draws' jwtVerify headers route hInput =>
        obtain ⟨rfl, trusted, rfl⟩ := Request.mk.inj (Option.some.inj made)
        have configured := productionConfig_of_started started production
        obtain ⟨jwksUrl, issuer, audience, auth, -⟩ := configured.auth
        rw [auth] at trusted
        obtain ⟨subject, proves, found⟩ := authenticateWith_authenticated.mp trusted
        obtain ⟨clerkOrgId, inOrg, granted⟩ := resolve_granted
          (earlier.filterMap (delivered config)) subject principal (before.tenancy ▸ found)
        exact .intro called hInput (configured.proves auth proves) found (before.tenancy ▸ inOrg)
          granted (.intro wellFormed same hListed under continues) alike
  · obtain ⟨row, hRow, ungated⟩ := (inv.sound job listed).order
    exact ⟨row, hRow, ungated.toOrderFor⟩

/-! ### A run -/

def acmeDeliveryDraws : ProvisioningDraws :=
  ⟨"7d3f6f0e-2f7c-4b0a-9c66-0b8f6f6f0a01", "7d3f6f0e-2f7c-4b0a-9c66-0b8f6f6f0a02",
    "7d3f6f0e-2f7c-4b0a-9c66-0b8f6f6f0a03"⟩

/-- Jo joins Acme, and asks for an objective and for a task under it. -/
def joCalls : List HttpCall := [
  .webhook acmeDeliveryDraws signsJoins ⟨[], some ""⟩,
  .api (crmDraws "7d3f6f0e-2f7c-4b0a-9c66-0b8f6f6f0a04") trustsJo joBearer
    acmeObjectiveRequest.route,
  .api (crmDraws "task-1") trustsJo joBearer acmeTaskRequest.route]

def joLog : List SystemVisit :=
  visits (serveSystem .plain acmeIds (productionConfig productionEnv)) .migrated joCalls

def joWorld : SystemWorld :=
  final (serveSystem .plain acmeIds (productionConfig productionEnv)) .migrated joCalls

theorem joWorld_reached : SystemRun .plain acmeIds (productionConfig productionEnv)
    crmFallbackDeps joLog joWorld :=
  .called (.called (.called .migrated _) _) _

theorem production_work_jo :
    WorkAsAsked productionEnv acmeIds (productionConfig productionEnv) joLog joWorld :=
  production_work .plain acmeIds crmFallbackDeps readyBoot productionEnv
    (productionConfig productionEnv) productionEnv_starts rfl joLog joWorld joWorld_reached

example : joWorld.durable.queue.db.tasks.length = 1 ∧ joWorld.durable.queue.jobs.length = 1 := by
  decide

end Donna
