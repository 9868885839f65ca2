import Donna.ControlPlane.Access

/-! Where the work of a process without a database comes from.  Each order in its queue was asked
for by a request that was answered so, under an objective that an earlier request had created in the
same tenant, within whose boundary the dispatching principal stands. -/

namespace Donna

open Js JsValue Machine

/-! ### One request -/

/-- A response that a task was queued, by its code and status. -/
def isQueued : Except Thrown Response → Bool
  | .ok response => response.code == 202 && (response.body.own "status").asString == some "queued"
  | .error _ => false

/-- Everything that a request can do to the services. -/
inductive RequestEffect (state : InMemory) : Request → Except Thrown Response → InMemory → Prop
  | nothing {request answer} (unqueued : isQueued answer = false) :
      RequestEffect state request answer state
  | created {draws principal body answer} (input : CreateObjectiveInput)
      (admits : (newObjective draws.recordId input principal).Admits principal)
      (unqueued : isQueued answer = false) :
      RequestEffect state ⟨draws, .authenticated principal, .postObjectives body⟩ answer
        ((inMemoryObjectiveService draws).create input principal state).2
  | dispatched {draws principal id body goal definitionOfDone requiredCapabilities objective}
      (wellFormed : WellFormedDispatch body goal definitionOfDone requiredCapabilities)
      (found : state.objectives.get id principal.organizationId = some objective)
      (admits : objective.Admits principal) (notTeam : objective.scope ≠ .string "TEAM")
      {input : DispatchInput} (asked : input = dispatchInput id goal definitionOfDone
        requiredCapabilities (body.orElse (.object []))) :
      RequestEffect state ⟨draws, .authenticated principal, .postTasks id body⟩
        (.ok (queued ⟨newTask draws.recordId input, "mem-" ++ toString (state.seq + 1)⟩))
        ((inMemoryTaskDispatcher draws).dispatch input principal state).2

section Requests

variable {realm : Realm} {draws : Draws} {state : InMemory} {principal : PrincipalContext}
  {id : String} {body : JsValue}

theorem isQueued_queued (result : DispatchResult) : isQueued (.ok (queued result)) = true := rfl

theorem isQueued_refusal {decision : PolicyDecision} {response : Response}
    (refused : refusal decision = some response) : isQueued (.ok response) = false := by
  unfold refusal at refused
  split at refused
  · cases refused
    rfl
  · cases refused
    rfl
  · cases refused

theorem createObjective_unqueued {σ : Type} {deps : ServerDeps σ} {state : σ} (body : JsValue) :
    isQueued (createObjective realm deps principal body state).1 = false := by
  unfold createObjective
  dsimp only
  split
  · split
    · rfl
    · split
      · next response refused => exact isQueued_refusal refused
      · split <;> rfl
  · rfl

theorem readObjective_unqueued {σ : Type} {deps : ServerDeps σ} {state : σ} (id : String) :
    isQueued (readObjective realm deps principal id state) = false := by
  unfold readObjective
  split
  · rfl
  · rfl
  · split
    · rfl
    · split <;> rfl

theorem malformedDispatch_unqueued (body : JsValue) :
    isQueued (.ok (malformedDispatch body)) = false := by
  unfold malformedDispatch
  dsimp only
  split <;> rfl

theorem errorResponse_unqueued (code : ℕ) (error : String) :
    isQueued (.ok (errorResponse code error)) = false := by
  simp [isQueued, errorResponse, asString]

theorem createObjective_served (body : JsValue) :
    RequestEffect state ⟨draws, .authenticated principal, .postObjectives body⟩
      (createObjective realm (inMemoryDeps draws) principal body state).1
      (createObjective realm (inMemoryDeps draws) principal body state).2 := by
  have unqueued :
      isQueued (createObjective realm (inMemoryDeps draws) principal body state).1 = false :=
    createObjective_unqueued body
  cases hOutcome : ((body.orElse (.object [])).own "requestedOutcome").asString with
  | none =>
    have same : (createObjective realm (inMemoryDeps draws) principal body state).2 = state := by
      simp [createObjective, hOutcome]
    rw [same]
    exact .nothing unqueued
  | some requestedOutcome =>
    cases hDone : ((body.orElse (.object [])).own "definitionOfDone").asString with
    | none =>
      have same : (createObjective realm (inMemoryDeps draws) principal body state).2 = state := by
        simp [createObjective, hOutcome, hDone]
      rw [same]
      exact .nothing unqueued
    | some definitionOfDone =>
      by_cases admits : (newObjective draws.recordId (createInput requestedOutcome definitionOfDone
        (body.orElse (.object []))) principal).Admits principal
      · rw [createObjective_admitted hOutcome hDone admits] at unqueued ⊢
        exact .created _ admits unqueued
      · rw [createObjective_denied hOutcome hDone admits]
        exact .nothing unqueued

theorem dispatchTask_served (hScoped : state.objectives.Scoped) (id : String) (body : JsValue) :
    RequestEffect state ⟨draws, .authenticated principal, .postTasks id body⟩
      (dispatchTask realm (inMemoryDeps draws) principal id body state).1
      (dispatchTask realm (inMemoryDeps draws) principal id body state).2 := by
  cases found : state.objectives.get id principal.organizationId with
  | none =>
    rw [dispatchTask_missing (congrArg Except.ok found)]
    exact .nothing rfl
  | some objective =>
    by_cases wellFormed : ∃ goal definitionOfDone requiredCapabilities,
        WellFormedDispatch body goal definitionOfDone requiredCapabilities
    · obtain ⟨goal, definitionOfDone, requiredCapabilities, wellFormed⟩ := wellFormed
      by_cases admits : Objective.Admits { objective with teamId := none } principal
      · rw [dispatchTask_admitted wellFormed (congrArg Except.ok found) admits]
        obtain ⟨within, notTeam⟩ := Objective.admits_without_team.mp admits
        exact .dispatched wellFormed found within notTeam rfl
      · obtain ⟨scope, hScope⟩ := hScoped id _ (ObjectiveMap.get_eq_some.mp found)
        rw [dispatchTask_denied wellFormed (congrArg Except.ok found) hScope admits]
        exact .nothing rfl
    · rw [dispatchTask_malformed (congrArg Except.ok found) fun goal definitionOfDone capabilities
        made => wellFormed ⟨goal, definitionOfDone, capabilities, made⟩]
      exact .nothing (malformedDispatch_unqueued body)

theorem serve_served (hScoped : state.objectives.Scoped) (request : Request) :
    RequestEffect state request (serve realm state request).1 (serve realm state request).2 := by
  obtain ⟨draws, auth, route⟩ := request
  cases auth with
  | refused status error =>
    exact .nothing (errorResponse_unqueued status error)
  | authenticated principal =>
    cases route with
    | postObjectives body => exact createObjective_served body
    | getObjective id => exact .nothing (readObjective_unqueued id)
    | postTasks id body => exact dispatchTask_served hScoped id body

end Requests

/-! ### Histories -/

/-- A request that asked for an order: by a principal of the order's tenant, under the objective
that was stored then, which an earlier request of the tenant had created and whose boundary admits
the principal. -/
inductive AskedFor (realm : Realm) (earlier : List Request) : Request → Task → JsValue → Prop
  | intro {draws principal id body goal definitionOfDone requiredCapabilities}
      {input : DispatchInput} {creation objective}
      (wellFormed : WellFormedDispatch body goal definitionOfDone requiredCapabilities)
      (asked : input = dispatchInput id goal definitionOfDone requiredCapabilities
        (body.orElse (.object [])))
      (stored : (final (serve realm) {} earlier).objectives.lookup id =
        some ⟨objective, principal.organizationId⟩)
      (made : creation ∈ earlier) (under : creation.draws.recordId = id)
      (creates : Creates creation ⟨objective, principal.organizationId⟩)
      (admits : objective.Admits principal) (notTeam : objective.scope ≠ .string "TEAM") :
      AskedFor realm earlier ⟨draws, .authenticated principal, .postTasks id body⟩
        (newTask draws.recordId input) (buildWorkOrder (newTask draws.recordId input)
          principal.organizationId input.toWorkOrderHints)

abbrev Answered := Visit InMemory Request (Except Thrown Response)

/-- An answer `queued` with the place of its order in the queue. -/
def Answers (realm : Realm) (history : List Request) (item : Answered)
    (order : JsValue × ℕ) : Prop :=
  ∃ earlier later task, history = earlier ++ item.input :: later ∧
    AskedFor realm earlier item.input task order.1 ∧
    item.output = .ok (queued ⟨task, "mem-" ++ toString (order.2 + 1)⟩)

theorem Answers.append {realm : Realm} {history : List Request} {item : Answered}
    {order : JsValue × ℕ} (answers : Answers realm history item order) (more : List Request) :
    Answers realm (history ++ more) item order := by
  obtain ⟨earlier, later, task, split, asked, answered⟩ := answers
  exact ⟨earlier, later ++ more, task, by rw [split, List.append_assoc, List.cons_append], asked,
    answered⟩

/-- The queue of a process without a database holds an order for each request that was answered
`queued`, in their order, each under a job id of its own; and every order was asked for. -/
theorem orders_asked (realm : Realm) (history : List Request) :
    List.Forall₂ (Answers realm history)
        ((visits (serve realm) {} history).filter (isQueued ·.output))
        (final (serve realm) {} history).enqueued.zipIdx ∧
      (final (serve realm) {} history).seq = (final (serve realm) {} history).enqueued.length := by
  induction history using List.reverseRecOn with
  | nil => exact ⟨.nil, rfl⟩
  | append_singleton earlier request ih =>
    obtain ⟨answers, counted⟩ := ih
    have recorded := recorded_final realm earlier
    have kept := answers.imp fun _ _ answer => answer.append [request]
    have served : RequestEffect (final (serve realm) {} earlier) request
        (serve realm (final (serve realm) {} earlier) request).1
        (serve realm (final (serve realm) {} earlier) request).2 :=
      serve_served recorded.objectives_scoped request
    rw [visits_snoc, final_snoc, List.filter_append]
    generalize reached : final (serve realm) {} earlier = state at recorded counted kept served ⊢
    rw [visit]
    generalize serve realm state request = outcome at served ⊢
    obtain ⟨answer, after⟩ := outcome
    dsimp only at served ⊢
    have unanswered : isQueued answer = false →
        [(⟨state, request, answer, after⟩ : Answered)].filter (isQueued ·.output) = [] :=
      fun unqueued => by simp [unqueued]
    cases served with
    | nothing unqueued =>
      rw [unanswered unqueued, List.append_nil]
      exact ⟨kept, counted⟩
    | created input admits unqueued =>
      rw [unanswered unqueued, List.append_nil]
      exact ⟨kept, counted⟩
    | dispatched wellFormed found admits notTeam asked =>
      have stored := ObjectiveMap.get_eq_some.mp found
      obtain ⟨creation, made, under, creates⟩ := recorded _ _ stored
      refine ⟨?_, by simp [inMemoryTaskDispatcher, counted]⟩
      simp only [inMemoryTaskDispatcher, List.zipIdx_append]
      refine List.rel_append kept (.cons ?_ .nil)
      refine ⟨earlier, [], _, rfl,
        .intro wellFormed asked (reached ▸ stored) made under creates admits notTeam, ?_⟩
      simp [counted]

end Donna
