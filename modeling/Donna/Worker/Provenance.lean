import Donna.ControlPlane.ObjectiveStore
import Donna.ControlPlane.WorkOrigins
import Donna.Worker.Settling

/-! Where the work of the deployed system comes from.  Requests to the API and the workers share the
tables; whatever their order, an order that a worker runs, be it for the first time, a retry or a
redelivery, is the one that a request asked for under an objective of its own tenant, within whose
boundary its principal stands. -/

namespace Donna

open Js JsValue JobQueue Tables

/-! ### The durable services -/

/-- The tables of the control plane and the workers.  Nothing reads the events of objectives and of
tasks, which stand in one table, in their common order. -/
structure DurableWorld where
  objectives : ObjectiveDatabase
  queue : QueueWorld

/-- The services of a process with a database. -/
def durableDeps (uuid : UuidType) (draws : Draws) : ServerDeps (ObjectiveDatabase × Database) where
  objectiveService := {
    create := fun input principal state =>
      let (answer, objectives) :=
        (drizzleObjectiveService uuid draws).create input principal state.1
      (answer, (objectives, state.2))
    get := fun id organizationId state =>
      (drizzleObjectiveService uuid draws).get id organizationId state.1 }
  taskDispatcher := {
    dispatch := fun input principal state =>
      let (answer, db) := (drizzleTaskDispatcher draws).dispatch input principal state.2
      (answer, (state.1, db)) }

/-- The world after a request. -/
def DurableWorld.serve (realm : Realm) (uuid : UuidType) (world : DurableWorld)
    (request : Request) : DurableWorld :=
  let tables := (answer realm (durableDeps uuid request.draws) request.auth request.route
    (world.objectives, world.queue.db)).2
  ⟨tables.1, ⟨tables.2, addCalls (world.queue.db.added tables.2) world.queue.jobs⟩⟩

/-- The runs of the system: the requests so far, and the world that they led to. -/
inductive DurableRun (realm : Realm) (uuid : UuidType) (deps : OrchestratorDeps)
    (start : DurableWorld) : List Request → DurableWorld → Prop
  | start : DurableRun realm uuid deps start [] start
  | requested {history world} (earlier : DurableRun realm uuid deps start history world)
      (request : Request) :
      DurableRun realm uuid deps start (history ++ [request]) (world.serve realm uuid request)
  | background {history world queue'} (earlier : DurableRun realm uuid deps start history world)
      (step : BackgroundStep deps world.queue queue') :
      DurableRun realm uuid deps start history ⟨world.objectives, queue'⟩

/-! ### One request -/

/-- The principal of a dispatch may act under the objective: it is of the principal's tenant, and
admits the principal without regard to teams. -/
structure ActsUnder (uuid : UuidType) (principal : PrincipalContext) (id : String)
    (objective : ObjectiveRow) : Prop where
  id : uuid.read id = some objective.id
  tenant : uuid.read principal.organizationId = some objective.organizationId
  admits : (rowToObjective objective).Admits principal
  notTeam : objective.scope ≠ .team

/-- What a request does to the tables, with its answer: it may add an objective, or it dispatches a
task. -/
inductive TableEffect (uuid : UuidType) (objectives : ObjectiveDatabase) (db : Database) :
    Request → Except Thrown Response → ObjectiveDatabase × Database → Prop
  | kept {request answer objectives'} (unqueued : isQueued answer = false)
      (tenancy : objectives'.tenancy = objectives.tenancy)
      (grown : objectives.objectives ⊆ objectives'.objectives) :
      TableEffect uuid objectives db request answer (objectives', db)
  | dispatched {draws principal id body goal definitionOfDone requiredCapabilities}
      {objective : ObjectiveRow} {input : DispatchInput}
      (wellFormed : WellFormedDispatch body goal definitionOfDone requiredCapabilities)
      (asked : input = dispatchInput id goal definitionOfDone requiredCapabilities
        (body.orElse (.object [])))
      (listed : objective ∈ objectives.objectives)
      (under : ActsUnder uuid principal id objective) :
      TableEffect uuid objectives db ⟨draws, .authenticated principal, .postTasks id body⟩
        (((drizzleTaskDispatcher draws).dispatch input principal db).1.map queued)
        (objectives, ((drizzleTaskDispatcher draws).dispatch input principal db).2)

section Requests

variable {realm : Realm} {uuid : UuidType} {draws : Draws} {objectives : ObjectiveDatabase}
  {db : Database} {principal : PrincipalContext} {id : String} {body : JsValue}

/-- What a creation leaves behind is what the service leaves, if it was asked. -/
theorem createObjective_left {σ : Type} {deps : ServerDeps σ} {state : σ} :
    (createObjective realm deps principal body state).2 = state ∨
      ∃ input, (createObjective realm deps principal body state).2 =
        (deps.objectiveService.create input principal state).2 := by
  unfold createObjective
  dsimp only
  split
  · split
    · exact .inl rfl
    · split
      · exact .inl rfl
      · split
        · next asked => exact .inr ⟨_, (congrArg Prod.snd asked).symm⟩
        · next asked => exact .inr ⟨_, (congrArg Prod.snd asked).symm⟩
  · exact .inl rfl

theorem insertObjective_grows {insert : ObjectiveInsert} {after : ObjectiveDatabase}
    (inserted : objectives.insertObjective uuid insert = .ok after) :
    after.tenancy = objectives.tenancy ∧ objectives.objectives ⊆ after.objectives := by
  obtain ⟨row, -, inserted⟩ := bind_eq_ok.mp inserted
  split at inserted
  · split at inserted
    · cases inserted
      exact ⟨rfl, List.subset_append_left _ _⟩
    · cases inserted
  · cases inserted

theorem drizzleObjectiveService_create_grows (input : CreateObjectiveInput) :
    ((drizzleObjectiveService uuid draws).create input principal objectives).2.tenancy =
        objectives.tenancy ∧
      objectives.objectives ⊆
        ((drizzleObjectiveService uuid draws).create input principal objectives).2.objectives := by
  simp only [drizzleObjectiveService]
  split
  · exact ⟨rfl, List.Subset.refl _⟩
  · next inserted =>
    have grown := insertObjective_grows inserted
    exact grown

/-- A read of the service finds a row of the tenant. -/
theorem drizzleObjectiveService_get {objective : Objective}
    (found : (drizzleObjectiveService uuid draws).get id principal.organizationId objectives =
      .ok (some objective)) :
    ∃ row ∈ objectives.objectives, uuid.read id = some row.id ∧
      uuid.read principal.organizationId = some row.organizationId ∧
      objective = rowToObjective row := by
  obtain ⟨stored, selected, found⟩ := bind_eq_ok.mp found
  obtain ⟨idColumn, hId, selected⟩ := bind_eq_ok.mp selected
  obtain ⟨organizationColumn, hOrganization, selected⟩ := bind_eq_ok.mp selected
  cases stored with
  | none => cases found
  | some row =>
    obtain ⟨listed, rfl, rfl⟩ := find_objective.mp (Except.ok.inj selected)
    exact ⟨row, listed, uuidColumn_eq_ok.mp hId, uuidColumn_eq_ok.mp hOrganization,
      (Option.some.inj (Except.ok.inj found)).symm⟩

theorem rowToObjective_scope (row : ObjectiveRow) :
    (rowToObjective row).scope = .string row.scope.name := rfl

theorem dispatchTask_tableEffect :
    TableEffect uuid objectives db ⟨draws, .authenticated principal, .postTasks id body⟩
      (dispatchTask realm (durableDeps uuid draws) principal id body (objectives, db)).1
      (dispatchTask realm (durableDeps uuid draws) principal id body (objectives, db)).2 := by
  have untouched : ∀ answer, isQueued answer = false → TableEffect uuid objectives db
      ⟨draws, .authenticated principal, .postTasks id body⟩ answer (objectives, db) :=
    fun _ unqueued => .kept unqueued rfl (List.Subset.refl _)
  cases found : (durableDeps uuid draws).objectiveService.get id principal.organizationId
      (objectives, db) with
  | error error =>
    rw [dispatchTask, found]
    exact untouched _ rfl
  | ok answered =>
    cases answered with
    | none =>
      rw [dispatchTask_missing found]
      exact untouched _ (errorResponse_unqueued 404 _)
    | some objective =>
      have read : (drizzleObjectiveService uuid draws).get id principal.organizationId objectives =
          .ok (some objective) := found
      obtain ⟨row, listed, hId, hTenant, rfl⟩ := drizzleObjectiveService_get read
      by_cases wellFormed : ∃ goal definitionOfDone requiredCapabilities,
          WellFormedDispatch body goal definitionOfDone requiredCapabilities
      · obtain ⟨goal, definitionOfDone, requiredCapabilities, wellFormed⟩ := wellFormed
        by_cases admits : Objective.Admits { rowToObjective row with teamId := none } principal
        · rw [dispatchTask_admitted wellFormed found admits]
          obtain ⟨within, notTeam⟩ := Objective.admits_without_team.mp admits
          refine .dispatched wellFormed rfl listed ⟨hId, hTenant, within, fun team => notTeam ?_⟩
          rw [rowToObjective_scope, team]
          rfl
        · rw [dispatchTask_denied wellFormed found (rowToObjective_scope row) admits]
          exact untouched _ rfl
      · rw [dispatchTask_malformed found fun goal definitionOfDone capabilities made =>
          wellFormed ⟨goal, definitionOfDone, capabilities, made⟩]
        exact untouched _ (malformedDispatch_unqueued body)

theorem answer_tableEffect (realm : Realm) (uuid : UuidType) (objectives : ObjectiveDatabase)
    (db : Database) (request : Request) :
    TableEffect uuid objectives db request
      (answer realm (durableDeps uuid request.draws) request.auth request.route
        (objectives, db)).1
      (answer realm (durableDeps uuid request.draws) request.auth request.route
        (objectives, db)).2 := by
  obtain ⟨draws, auth, route⟩ := request
  cases auth with
  | refused status error => exact .kept (errorResponse_unqueued status error) rfl (.refl _)
  | authenticated principal =>
    cases route with
    | getObjective id => exact .kept (readObjective_unqueued id) rfl (.refl _)
    | postTasks id body => exact dispatchTask_tableEffect
    | postObjectives body =>
      have unqueued : isQueued (createObjective realm (durableDeps uuid draws) principal body
          (objectives, db)).1 = false := createObjective_unqueued body
      show TableEffect uuid objectives db _ (createObjective _ _ _ _ _).1
        (createObjective _ _ _ _ _).2
      rcases createObjective_left with same | ⟨input, same⟩
      · rw [same]
        exact .kept unqueued rfl (.refl _)
      · rw [same]
        obtain ⟨tenancy, grown⟩ := drizzleObjectiveService_create_grows input
        exact .kept unqueued tenancy grown

/-- A request adds objectives, and at most one row, which is pending. -/
theorem TableEffect.grows {request : Request} {answer : Except Thrown Response}
    {tables : ObjectiveDatabase × Database}
    (effect : TableEffect uuid objectives db request answer tables) :
    objectives.objectives ⊆ tables.1.objectives ∧ db.tasks ⊆ tables.2.tasks ∧
      ∀ row ∈ tables.2.tasks, row ∈ db.tasks ∨ row.status = .pending := by
  cases effect with
  | kept unqueued tenancy grown => exact ⟨grown, List.Subset.refl _, fun row listed => .inl listed⟩
  | @dispatched draws principal _ _ _ _ _ _ input =>
    refine ⟨List.Subset.refl _, ?_⟩
    rcases dispatch_cases draws input principal db with
      ⟨-, refused⟩ | ⟨free, after, accepted, tasks, -⟩
    · rw [refused]
      exact ⟨List.Subset.refl _, fun row listed => .inl listed⟩
    · rw [accepted]
      dsimp only
      rw [tasks]
      refine ⟨List.subset_append_left _ _, fun row listed => ?_⟩
      rcases List.mem_append.mp listed with before | new
      · exact .inl before
      · obtain rfl := List.mem_singleton.mp new
        exact .inr rfl

end Requests

/-! ### Every run -/

/-- The columns of a row that a commit does not write. -/
def TaskRow.Continues (row origin : TaskRow) : Prop :=
  row = { origin with
    status := row.status
    retryCount := row.retryCount
    updatedAt := row.updatedAt }

/-- A request asked for the task of a row, and for the order that the jobs of the task read as. -/
inductive RequestedTask (uuid : UuidType) (objectives : ObjectiveDatabase) :
    Request → TaskRow → Parsed WorkOrder → Prop
  | intro {draws principal id body goal definitionOfDone requiredCapabilities row}
      {input : DispatchInput} {objective : ObjectiveRow}
      (wellFormed : WellFormedDispatch body goal definitionOfDone requiredCapabilities)
      (asked : input = dispatchInput id goal definitionOfDone requiredCapabilities
        (body.orElse (.object [])))
      (listed : objective ∈ objectives.objectives)
      (under : ActsUnder uuid principal id objective)
      (same : row.Continues (taskToRow draws.now (newTask draws.recordId input)
        principal.organizationId requiredCapabilities)) :
      RequestedTask uuid objectives ⟨draws, .authenticated principal, .postTasks id body⟩ row
        (parseWorkOrder (dispatchJob draws input principal).payload)

/-- Each row has a request that asked for it and for what all its jobs read as. -/
def AllRequested (uuid : UuidType) (history : List Request) (world : DurableWorld) : Prop :=
  ∀ row ∈ world.queue.db.tasks, ∃ request ∈ history, ∃ read,
    RequestedTask uuid world.objectives request row read ∧ ReadAs read row.id world.queue.jobs

section Runs

variable {realm : Realm} {uuid : UuidType} {deps : OrchestratorDeps} {history : List Request}
  {world : DurableWorld} {queue' : QueueWorld} {row origin : TaskRow}

theorem TaskRow.Continues.trans {before : TaskRow} (later : row.Continues before)
    (earlier : before.Continues origin) : row.Continues origin := by
  rw [TaskRow.Continues] at later earlier ⊢
  rw [later, earlier]

/-- A commit changes no row but in the columns that it writes. -/
theorem commitOutcome_continues {moment : Moment} {input : CommitOutcomeInput} {db db' : Database}
    {outcome : CommitOutcome} (run : commitOutcome moment input db = (.ok outcome, db'))
    (listed : row ∈ db'.tasks) : ∃ before ∈ db.tasks, row.Continues before := by
  rcases commitOutcome_cases moment input db with
    ⟨reason, skipped, -⟩ | ⟨about, hAbout, -, -, -, -, writes⟩
  · rw [run] at skipped
    obtain rfl : db' = db := congrArg Prod.snd skipped
    exact ⟨row, listed, rfl⟩
  · rw [run] at writes
    rw [writes.tasks] at listed
    obtain ⟨before, hBefore, rfl⟩ := List.mem_map.mp listed
    refine ⟨before, hBefore, ?_⟩
    split
    · next same =>
      obtain rfl := db.eq_of_id hBefore hAbout same
      rfl
    · rfl

theorem BackgroundStep.continues (step : BackgroundStep deps world.queue queue')
    (listed : row ∈ queue'.db.tasks) : ∃ before ∈ world.queue.db.tasks, row.Continues before := by
  cases step with
  | worked step =>
    cases step with
    | committed key payload moment run moves => exact commitOutcome_continues run listed
    | _ => exact ⟨row, listed, rfl⟩
  | _ => exact ⟨row, listed, rfl⟩

theorem RequestedTask.continue {objectives objectives' : ObjectiveDatabase} {request : Request}
    {read : Parsed WorkOrder} (asked : RequestedTask uuid objectives request origin read)
    (grown : objectives.objectives ⊆ objectives'.objectives) (continues : row.Continues origin) :
    RequestedTask uuid objectives' request row read := by
  obtain ⟨wellFormed, same, listed, under, first⟩ := asked
  exact .intro wellFormed same (grown listed) under (continues.trans first)

theorem AllRequested.background (asked : AllRequested uuid history world)
    (inv : DeployedInvariant world.queue) (step : BackgroundStep deps world.queue queue') :
    AllRequested uuid history ⟨world.objectives, queue'⟩ := by
  intro row listed
  obtain ⟨before, hBefore, continues⟩ := step.continues listed
  obtain ⟨request, hRequest, read, hAsked, alike⟩ := asked before hBefore
  have effect : StepEffect world.queue queue' := DeployedStep.effect inv (.background step)
  have id : row.id = before.id := by rw [continues]
  refine ⟨request, hRequest, read, hAsked.continue (List.Subset.refl _) continues, ?_⟩
  rw [id]
  exact effect.readAs inv (List.mem_map_of_mem hBefore) alike

theorem AllRequested.kept (asked : AllRequested uuid history world) (request : Request)
    {objectives' : ObjectiveDatabase}
    (grown : world.objectives.objectives ⊆ objectives'.objectives) :
    AllRequested uuid (history ++ [request]) ⟨objectives', world.queue⟩ := by
  intro row listed
  obtain ⟨earlier, hEarlier, read, hAsked, alike⟩ := asked row listed
  exact ⟨earlier, List.mem_append_left _ hEarlier, read, hAsked.continue grown rfl, alike⟩

/-- A dispatch under an objective adds a row that its own request asked for. -/
theorem AllRequested.dispatched (asked : AllRequested uuid history world)
    (inv : DeployedInvariant world.queue) {draws : Draws} {principal : PrincipalContext}
    {id goal definitionOfDone : String} {body : JsValue} {requiredCapabilities : List String}
    {objective : ObjectiveRow} {input : DispatchInput}
    (wellFormed : WellFormedDispatch body goal definitionOfDone requiredCapabilities)
    (same : input = dispatchInput id goal definitionOfDone requiredCapabilities
      (body.orElse (.object [])))
    (listed : objective ∈ world.objectives.objectives)
    (under : ActsUnder uuid principal id objective) {answer : Except Thrown DispatchResult}
    {db' : Database}
    (run : (drizzleTaskDispatcher draws).dispatch input principal world.queue.db = (answer, db')) :
    AllRequested uuid (history ++ [⟨draws, .authenticated principal, .postTasks id body⟩])
      ⟨world.objectives, ⟨db', addCalls (world.queue.db.added db') world.queue.jobs⟩⟩ := by
  have kept := asked.kept ⟨draws, .authenticated principal, .postTasks id body⟩
    (List.Subset.refl _)
  rcases dispatch_cases draws input principal world.queue.db with
    ⟨-, refused⟩ | ⟨free, after, accepted, tasks, events, jobs⟩
  · rw [run] at refused
    obtain ⟨-, rfl⟩ := Prod.ext_iff.mp refused
    rw [addCalls_nil]
    exact kept
  · rw [run] at accepted
    obtain ⟨-, rfl⟩ := Prod.ext_iff.mp accepted
    rw [Database.added_eq jobs]
    intro row hRow
    have hRow : row ∈ db'.tasks := hRow
    rw [tasks] at hRow
    rcases List.mem_append.mp hRow with before | new
    · obtain ⟨earlier, hEarlier, read, hAsked, alike⟩ := kept row before
      have effect : StepEffect world.queue ⟨db', add (some draws.recordId) _ world.queue.jobs⟩ :=
        .created draws _ principal free tasks events
      exact ⟨earlier, hEarlier, read, hAsked, effect.readAs inv (List.mem_map_of_mem before) alike⟩
    · obtain rfl := List.mem_singleton.mp new
      refine ⟨_, List.mem_append_right _ (List.mem_singleton_self _), _,
        .intro wellFormed same listed under ?_, inv.readAs_created _ principal free⟩
      rw [same]
      rfl

/-- A request keeps both invariants. -/
theorem AllRequested.requested (asked : AllRequested uuid history world)
    (inv : DeployedInvariant world.queue) (deps : OrchestratorDeps) (request : Request) :
    DeployedInvariant (world.serve realm uuid request).queue ∧
      AllRequested uuid (history ++ [request]) (world.serve realm uuid request) := by
  have effect := answer_tableEffect realm uuid world.objectives world.queue.db request
  unfold DurableWorld.serve
  generalize answer realm (durableDeps uuid request.draws) request.auth request.route
    (world.objectives, world.queue.db) = served at effect
  obtain ⟨answered, tables⟩ := served
  cases effect with
  | kept unqueued tenancy grown =>
    dsimp only
    rw [addCalls_nil]
    exact ⟨inv, asked.kept request grown⟩
  | @dispatched draws principal id body _ _ _ _ input wellFormed same listed under =>
    exact ⟨inv.dispatched deps draws input principal,
      asked.dispatched inv wellFormed same listed under rfl⟩

theorem DurableRun.requested_all {start : DurableWorld} (first : DeployedInvariant start.queue)
    (empty : start.queue.db.tasks = []) (run : DurableRun realm uuid deps start history world) :
    DeployedInvariant world.queue ∧ AllRequested uuid history world := by
  induction run with
  | start => exact ⟨first, by simp [AllRequested, empty]⟩
  | requested earlier request ih => exact ih.2.requested ih.1 deps request
  | background earlier step ih =>
    exact ⟨ih.1.step (.background step), ih.2.background ih.1 step⟩

end Runs

/-- However requests and workers interleave, from tables without tasks on: each task was asked for
by a request, of a principal of its tenant, under an objective of that tenant whose boundary admits
the principal; and every job, also of a retry or a redelivery, is for such a task, and reads as the
order that the request built. -/
theorem durable_work_requested (realm : Realm) (uuid : UuidType) (deps : OrchestratorDeps)
    (start : DurableWorld) (empty : start.queue.db.tasks = [])
    (unlogged : start.queue.db.events = []) (idle : start.queue.jobs = [])
    (history : List Request) (world : DurableWorld)
    (run : DurableRun realm uuid deps start history world) :
    AllRequested uuid history world ∧
      ∀ job ∈ world.queue.jobs, ∃ row ∈ world.queue.db.tasks, OrderFor job.payload row := by
  have first : DeployedInvariant start.queue := by
    obtain ⟨objectives, db, jobs⟩ := start
    obtain rfl : jobs = [] := idle
    exact .start empty unlogged
  obtain ⟨inv, asked⟩ := run.requested_all first empty
  refine ⟨asked, fun job listed => ?_⟩
  obtain ⟨row, hRow, ungated⟩ := (inv.sound job listed).order
  exact ⟨row, hRow, ungated.toOrderFor⟩

def acmeStart : DurableWorld where
  objectives := .empty acmeTenancy
  queue := ⟨⟨[], [], [], List.nodup_nil⟩, []⟩

def acmeObjectiveRequest : Request where
  draws := crmDraws "7d3f6f0e-2f7c-4b0a-9c66-0b8f6f6f0a04"
  auth := .authenticated acmePrincipal
  route := .postObjectives (.object [
    ("requestedOutcome", .string "Clean contacts"),
    ("definitionOfDone", .string "No contact is listed twice")])

def acmeTaskRequest : Request where
  draws := crmDraws "task-1"
  auth := .authenticated acmePrincipal
  route := .postTasks "7d3f6f0e-2f7c-4b0a-9c66-0b8f6f6f0a04" crmTaskBody

/-- Acme's objective, and a task under it. -/
def acmeWorld : DurableWorld :=
  (acmeStart.serve .plain acmeIds acmeObjectiveRequest).serve .plain acmeIds acmeTaskRequest

theorem durable_work_requested_acme :
    AllRequested acmeIds [acmeObjectiveRequest, acmeTaskRequest] acmeWorld ∧
      ∀ job ∈ acmeWorld.queue.jobs, ∃ row ∈ acmeWorld.queue.db.tasks, OrderFor job.payload row :=
  durable_work_requested .plain acmeIds crmFallbackDeps acmeStart rfl rfl rfl _ acmeWorld
    (.requested (.requested .start acmeObjectiveRequest) acmeTaskRequest)

example : acmeWorld.queue.db.tasks.length = 1 ∧ acmeWorld.queue.jobs.length = 1 := by decide

end Donna
