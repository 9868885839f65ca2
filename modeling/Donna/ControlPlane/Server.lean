import Donna.ControlPlane.Dispatch
import Donna.Policy.Engine

/-! The routes of the control-plane API on objectives and tasks.  A handler sends a response or
throws, and leaves the state of the services behind it; what it throws, the framework answers with
status 500. -/

namespace Donna

open Js JsValue

/-! ### Actions and resources -/

def objectiveCreateAction : ActionDescriptor where
  name := "objective.create"
  authorityLevel := .prepare
  sideEffecting := false

def objectiveReadAction : ActionDescriptor where
  name := "objective.read"
  authorityLevel := .observe
  sideEffecting := false

def taskDispatchAction : ActionDescriptor where
  name := "task.dispatch"
  authorityLevel := .prepare
  sideEffecting := false

def decideOn (realm : Realm) (principal : PrincipalContext) (action : ActionDescriptor)
    (resource : JsValue) : Except TypeError PolicyDecision :=
  evaluate realm (.object [
    ("principal", principal.toJs),
    ("action", action.toJs),
    ("resource", resource)])

def createResource (principal : PrincipalContext) (scope : JsValue)
    (teamId projectId : Option JsValue) : JsValue := .object (present [
  ("organizationId", some (.string principal.organizationId)),
  ("scope", some scope),
  ("ownerUserId", some (.string principal.userId)),
  ("teamId", teamId),
  ("projectId", projectId)])

def readResource (principal : PrincipalContext) (objective : Objective) : JsValue :=
  .object (present [
    ("organizationId", some (.string principal.organizationId)),
    ("scope", some objective.scope),
    ("ownerUserId", some (.string objective.ownerId)),
    ("projectId", objective.projectId),
    ("teamId", objective.teamId)])

def dispatchResource (principal : PrincipalContext) (objective : Objective) : JsValue :=
  .object (present [
    ("organizationId", some (.string principal.organizationId)),
    ("scope", some objective.scope),
    ("ownerUserId", some (.string objective.ownerId)),
    ("projectId", objective.projectId)])

/-! ### Requests and responses -/

/-- The outcome of authenticating a request: a trusted principal, or a refusal. -/
inductive AuthOutcome
  | authenticated (principal : PrincipalContext)
  | refused (status : ℕ) (error : String)

structure Response where
  code : ℕ
  body : JsValue

def errorResponse (code : ℕ) (error : String) : Response :=
  ⟨code, .object [("error", .string error)]⟩

def denied (decision : PolicyDecision) : Response :=
  ⟨403, .object [
    ("error", .string decision.reason.name),
    ("message", .string decision.message)]⟩

def approvalRequired (decision : PolicyDecision) : Response :=
  ⟨202, .object [
    ("status", .string "approval_required"),
    ("reason", .string decision.reason.name)]⟩

def queued (result : DispatchResult) : Response :=
  ⟨202, .object [
    ("status", .string "queued"),
    ("task", result.task.toJs),
    ("jobId", .string result.jobId)]⟩

/-- How a mutating route answers a decision that does not allow. -/
def refusal (decision : PolicyDecision) : Option Response :=
  match decision.effect with
  | .deny => some (denied decision)
  | .requiresApproval => some (approvalRequired decision)
  | .allow => none

/-- A property of a body for a conditional spread: absent when it is `undefined`. -/
def given (value : JsValue) : Option JsValue := if value.isUndefined then none else some value

def asStringArray : JsValue → Option (List String)
  | .undefined => some []
  | .array items => items.mapM asString
  | _ => none

structure ServerDeps (σ : Type) where
  objectiveService : ObjectiveService σ
  taskDispatcher : TaskDispatcher σ

/-! ### Routes -/

section Routes

variable {σ : Type} (realm : Realm) (deps : ServerDeps σ)

/-- The input of a creation that the body of a request makes. -/
def createInput (requestedOutcome definitionOfDone : String) (body : JsValue) :
    CreateObjectiveInput where
  requestedOutcome := requestedOutcome
  definitionOfDone := definitionOfDone
  scope := (body.own "scope").orElse (.string "ORGANIZATION")
  riskLevel := (body.own "riskLevel").orElse (.string "low")
  projectId := given (body.own "projectId")
  teamId := given (body.own "teamId")

/-- `POST /objectives` for an authenticated principal. -/
def createObjective (principal : PrincipalContext) (requestBody : JsValue) (state : σ) :
    Except Thrown Response × σ :=
  let body := requestBody.orElse (.object [])
  match (body.own "requestedOutcome").asString, (body.own "definitionOfDone").asString with
  | some requestedOutcome, some definitionOfDone =>
    let input := createInput requestedOutcome definitionOfDone body
    match decideOn realm principal objectiveCreateAction
        (createResource principal input.scope input.teamId input.projectId) with
    | .error error => (.error (.typeError error), state)
    | .ok decision =>
      match refusal decision with
      | some response => (.ok response, state)
      | none =>
        match deps.objectiveService.create input principal state with
        | (.error error, left) => (.error error, left)
        | (.ok objective, left) => (.ok ⟨201, objective.toJs⟩, left)
  | _, _ =>
    (.ok (errorResponse 400 "requestedOutcome and definitionOfDone are required"), state)

/-- `GET /objectives/:id` for an authenticated principal. -/
def readObjective (principal : PrincipalContext) (id : String) (state : σ) :
    Except Thrown Response :=
  match deps.objectiveService.get id principal.organizationId state with
  | .error error => .error error
  | .ok none => .ok (errorResponse 404 "not_found")
  | .ok (some objective) =>
    match decideOn realm principal objectiveReadAction (readResource principal objective) with
    | .error error => .error (.typeError error)
    | .ok decision =>
      -- An unauthorized resource reads as a missing one.
      if decision.effect ≠ .allow then .ok (errorResponse 404 "not_found")
      else .ok ⟨200, objective.toJs⟩

/-- The input of a dispatch that the body of a request makes. -/
def dispatchInput (id goal definitionOfDone : String) (requiredCapabilities : List String)
    (body : JsValue) : DispatchInput where
  objectiveId := id
  goal := goal
  definitionOfDone := definitionOfDone
  requiredCapabilities := requiredCapabilities
  prefersHuman := given (body.own "prefersHuman")
  needsReasoning := given (body.own "needsReasoning")
  reasoningTier := given (body.own "reasoningTier")
  needsTools := given (body.own "needsTools")
  needsVision := given (body.own "needsVision")
  requireLocal := given (body.own "requireLocal")
  minContextTokens := given (body.own "minContextTokens")
  modelRequest := given (body.own "modelRequest")

/-- `POST /objectives/:id/tasks` for an authenticated principal. -/
def dispatchTask (principal : PrincipalContext) (id : String) (requestBody : JsValue) (state : σ) :
    Except Thrown Response × σ :=
  match deps.objectiveService.get id principal.organizationId state with
  | .error error => (.error error, state)
  | .ok none => (.ok (errorResponse 404 "objective_not_found"), state)
  | .ok (some objective) =>
    let body := requestBody.orElse (.object [])
    match (body.own "goal").asString, (body.own "definitionOfDone").asString with
    | some goal, some definitionOfDone =>
      match asStringArray (body.own "requiredCapabilities") with
      | none =>
        (.ok (errorResponse 400 "requiredCapabilities must be an array of strings"), state)
      | some requiredCapabilities =>
        match decideOn realm principal taskDispatchAction
            (dispatchResource principal objective) with
        | .error error => (.error (.typeError error), state)
        | .ok decision =>
          match refusal decision with
          | some response => (.ok response, state)
          | none =>
            match deps.taskDispatcher.dispatch
                (dispatchInput id goal definitionOfDone requiredCapabilities body) principal
                state with
            | (.error error, left) => (.error error, left)
            | (.ok result, left) => (.ok (queued result), left)
    | _, _ => (.ok (errorResponse 400 "goal and definitionOfDone are required"), state)

/-- The routes that look at objectives, with their parameters. -/
inductive Route
  | postObjectives (body : JsValue)
  | getObjective (id : String)
  | postTasks (id : String) (body : JsValue)

/-- Answer a request: an unauthenticated one is refused, and the others go to their handler. -/
def answer (auth : AuthOutcome) (route : Route) (state : σ) : Except Thrown Response × σ :=
  match auth with
  | .refused status error => (.ok (errorResponse status error), state)
  | .authenticated principal =>
    match route with
    | .postObjectives body => createObjective realm deps principal body state
    | .getObjective id => (readObjective realm deps principal id state, state)
    | .postTasks id body => dispatchTask realm deps principal id body state

end Routes

/-! ### Deployments -/

/-- The services of a process without a database. -/
def inMemoryDeps (draws : Draws) : ServerDeps InMemory where
  objectiveService := inMemoryObjectiveService draws
  taskDispatcher := inMemoryTaskDispatcher draws

/-- A request with what it draws from the platform. -/
structure Request where
  draws : Draws
  auth : AuthOutcome
  route : Route

/-- One request to the in-memory deployment. -/
def serve (realm : Realm) (state : InMemory) (request : Request) :
    Except Thrown Response × InMemory :=
  answer realm (inMemoryDeps request.draws) request.auth request.route state

end Donna
