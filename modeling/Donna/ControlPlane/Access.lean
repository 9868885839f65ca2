import Donna.Base.Machine
import Donna.ControlPlane.Visibility

/-! Who may read an objective and who may dispatch a task under it, for the objectives that a run of
the service creates.  The two agree but on a team's objectives: the dispatch route leaves the owning
team out of the resource, so under one nobody may dispatch. -/

namespace Donna

open Js JsValue Machine

/-- A request creates an entry: its body has the required texts and makes the objective, within a
boundary that admits the principal, whose tenant it is stored under. -/
inductive Creates : Request → StoredObjective → Prop
  | intro {draws creator body requestedOutcome definitionOfDone objective}
      (outcome : ((body.orElse (.object [])).own "requestedOutcome").asString =
        some requestedOutcome)
      (done : ((body.orElse (.object [])).own "definitionOfDone").asString = some definitionOfDone)
      (made : objective = newObjective draws.recordId
        (createInput requestedOutcome definitionOfDone (body.orElse (.object []))) creator)
      (admits : objective.Admits creator) :
      Creates ⟨draws, .authenticated creator, .postObjectives body⟩
        ⟨objective, creator.organizationId⟩

/-- An entry of the store is what a principal created: in the principal's tenant, owned by the
principal, and within a boundary that admits the principal. -/
structure CreatedBy (creator : PrincipalContext) (entry : StoredObjective) : Prop where
  tenant : entry.organizationId = creator.organizationId
  owner : entry.objective.ownerId = creator.userId
  admits : entry.objective.Admits creator

theorem Creates.createdBy {request : Request} {entry : StoredObjective}
    (creates : Creates request entry) :
    ∃ creator, request.auth = .authenticated creator ∧ CreatedBy creator entry := by
  cases creates with
  | @intro _ creator _ _ _ _ outcome done made admits =>
    exact ⟨creator, rfl, rfl, by rw [made]; rfl, admits⟩

/-- Every objective in the store was created by a request of the history, under its id. -/
def Recorded (history : List Request) (state : InMemory) : Prop :=
  ∀ id entry, state.objectives.lookup id = some entry →
    ∃ request ∈ history, request.draws.recordId = id ∧ Creates request entry

section Steps

variable {realm : Realm} {draws : Draws} {state : InMemory} {principal : PrincipalContext}
  {history : List Request}

theorem createObjective_objectives (body : JsValue) :
    (createObjective realm (inMemoryDeps draws) principal body state).2.objectives =
      state.objectives ∨
    ∃ entry, Creates ⟨draws, .authenticated principal, .postObjectives body⟩ entry ∧
      (createObjective realm (inMemoryDeps draws) principal body state).2.objectives =
        (draws.recordId, entry) :: state.objectives := by
  cases hOutcome : ((body.orElse (.object [])).own "requestedOutcome").asString with
  | none => exact .inl (by simp [createObjective, hOutcome])
  | some requestedOutcome =>
    cases hDone : ((body.orElse (.object [])).own "definitionOfDone").asString with
    | none => exact .inl (by simp [createObjective, hOutcome, hDone])
    | some definitionOfDone =>
      by_cases admits : (newObjective draws.recordId (createInput requestedOutcome definitionOfDone
        (body.orElse (.object []))) principal).Admits principal
      · rw [createObjective_admitted hOutcome hDone admits]
        exact .inr ⟨_, .intro hOutcome hDone rfl admits, rfl⟩
      · rw [createObjective_denied hOutcome hDone admits]
        exact .inl rfl

theorem dispatchTask_objectives (id : String) (body : JsValue) :
    (dispatchTask realm (inMemoryDeps draws) principal id body state).2.objectives =
      state.objectives := by
  unfold dispatchTask
  split
  · rfl
  · rfl
  · dsimp only
    split
    · split
      · rfl
      · split
        · rfl
        · split <;> rfl
    · rfl

theorem serve_objectives (request : Request) :
    (serve realm state request).2.objectives = state.objectives ∨
    ∃ entry, Creates request entry ∧ (serve realm state request).2.objectives =
      (request.draws.recordId, entry) :: state.objectives := by
  obtain ⟨draws, auth, route⟩ := request
  cases auth with
  | refused status error => exact .inl rfl
  | authenticated principal =>
    cases route with
    | postObjectives body =>
      exact createObjective_objectives body
    | getObjective id => exact .inl rfl
    | postTasks id body => exact .inl (dispatchTask_objectives id body)

theorem Recorded.serve (recorded : Recorded history state) {request : Request}
    (made : request ∈ history) : Recorded history (serve realm state request).2 := by
  rcases serve_objectives request with same | ⟨entry, creates, added⟩
  · rw [Recorded, same]
    exact recorded
  · intro id found listed
    rw [added, lookup_field] at listed
    split at listed
    · cases listed
      rename_i here
      exact ⟨request, made, here.symm, creates⟩
    · exact recorded id found listed

theorem recorded_final (realm : Realm) (history : List Request) :
    Recorded history (final (Donna.serve realm) {} history) :=
  final_invariant_of_mem history (fun _ _ made recorded => Recorded.serve recorded made)
    fun _ _ listed => nomatch listed

theorem Recorded.objectives_scoped (recorded : Recorded history state) :
    state.objectives.Scoped := by
  intro id entry listed
  obtain ⟨_, _, _, creates⟩ := recorded id entry listed
  obtain ⟨_, _, created⟩ := creates.createdBy
  exact created.admits.scoped

/-- With distinct record ids an entry is what the request under its id created. -/
theorem Recorded.createdBy (recorded : Recorded history state)
    (distinct : (history.map fun request => request.draws.recordId).Nodup) {request : Request}
    (made : request ∈ history) {creator : PrincipalContext}
    (hAuth : request.auth = .authenticated creator) {entry : StoredObjective}
    (stored : state.objectives.lookup request.draws.recordId = some entry) :
    CreatedBy creator entry := by
  obtain ⟨other, hOther, sameId, creates⟩ := recorded _ entry stored
  obtain ⟨author, hAuthor, created⟩ := creates.createdBy
  obtain rfl := List.inj_on_of_nodup_map distinct hOther made sameId
  rw [hAuth] at hAuthor
  cases hAuthor
  exact created

end Steps

/-- The objective of an entry is owned by a team of the principal's in its own tenant. -/
structure TeamMember (principal : PrincipalContext) (entry : StoredObjective) : Prop where
  scope : entry.objective.scope = .string "TEAM"
  tenant : principal.organizationId = entry.organizationId
  member : ∃ team ∈ principal.teamIds, entry.objective.teamId = some (.string team)

/-- The members of a team are whom the boundary of its objective admits. -/
theorem teamMember_iff {principal : PrincipalContext} {entry : StoredObjective} :
    TeamMember principal entry ↔ principal.organizationId = entry.organizationId ∧
      entry.objective.Admits principal ∧ entry.objective.scope = .string "TEAM" := by
  constructor
  · rintro ⟨scope, tenant, team, member, owning⟩
    exact ⟨tenant, .team scope owning member, scope⟩
  · rintro ⟨tenant, admits, scope⟩
    rcases Objective.admits_iff.mp admits with other | ⟨-, member⟩ | ⟨other, -⟩ | ⟨other, -⟩
    · simp [other] at scope
    · exact ⟨scope, tenant, member⟩
    · simp [other] at scope
    · simp [other] at scope

/-- What the routes owe an objective that `creator` created: a principal may dispatch under it if
and only if the principal may read it, and its creator may do both. -/
def SameBoundary (realm : Realm) (state : InMemory) (draws : Draws) (id : String) (body : JsValue)
    (creator principal : PrincipalContext) : Prop :=
  let read := Found (serve realm state ⟨draws, .authenticated principal, .getObjective id⟩).1
  let dispatch :=
    Queued (serve realm state ⟨draws, .authenticated principal, .postTasks id body⟩).1
  (dispatch ↔ read) ∧ (principal = creator → dispatch ∧ read)

/-- Reading and dispatching agree on every objective that a history of requests created, for every
principal but the members of a team that owns it. -/
theorem sameBoundary_iff (realm : Realm) (history : List Request)
    (distinct : (history.map fun request => request.draws.recordId).Nodup) (request : Request)
    (made : request ∈ history) (creator : PrincipalContext)
    (authenticated : request.auth = .authenticated creator) (entry : StoredObjective)
    (stored : (final (serve realm) {} history).objectives.lookup request.draws.recordId =
      some entry)
    (body : JsValue) (goal definitionOfDone : String) (requiredCapabilities : List String)
    (wellFormed : WellFormedDispatch body goal definitionOfDone requiredCapabilities)
    (draws : Draws) (principal : PrincipalContext) :
    SameBoundary realm (final (serve realm) {} history) draws request.draws.recordId body creator
      principal ↔ ¬ TeamMember principal entry := by
  have recorded := recorded_final realm history
  have hScoped := recorded.objectives_scoped
  have created := recorded.createdBy distinct made authenticated stored
  have get : ∀ allowed : Objective → Prop,
      (∃ objective, (final (serve realm) {} history).objectives.get request.draws.recordId
        principal.organizationId = some objective ∧ allowed objective) ↔
      principal.organizationId = entry.organizationId ∧ allowed entry.objective := by
    obtain ⟨objective, tenant⟩ := entry
    intro allowed
    simp only [ObjectiveMap.get_eq_some, stored, Option.some.injEq, StoredObjective.mk.injEq]
    constructor
    · rintro ⟨_, ⟨rfl, rfl⟩, allows⟩
      exact ⟨rfl, allows⟩
    · rintro ⟨rfl, allows⟩
      exact ⟨objective, ⟨rfl, rfl⟩, allows⟩
  rw [SameBoundary, serve_getObjective_found hScoped, serve_postTasks_queued hScoped wellFormed,
    get, get, teamMember_iff]
  have own : principal = creator → principal.organizationId = entry.organizationId ∧
      entry.objective.Admits principal := by
    rintro rfl
    exact ⟨created.tenant.symm, created.admits⟩
  constructor
  · rintro ⟨agree, -⟩ ⟨tenant, admits, scope⟩
    exact (agree.mpr ⟨tenant, admits⟩).2.2 scope
  · intro notMember
    have open_ : principal.organizationId = entry.organizationId ∧
        entry.objective.Admits principal → principal.organizationId = entry.organizationId ∧
          entry.objective.Admits principal ∧ entry.objective.scope ≠ .string "TEAM" :=
      fun ⟨tenant, admits⟩ => ⟨tenant, admits, fun scope => notMember ⟨tenant, admits, scope⟩⟩
    exact ⟨⟨fun ⟨tenant, admits, _⟩ => ⟨tenant, admits⟩, open_⟩,
      fun same => ⟨open_ (own same), own same⟩⟩

/-! ### A team's objective -/

def crmMember : PrincipalContext where
  userId := "ada"
  organizationId := "acme"
  role := .teamMember
  actorKind := .human
  teamIds := ["crm"]
  projectIds := []

def crmDraws (recordId : String) : Draws where
  recordId := recordId
  event := { eventId := "event-1", correlationId := "correlation-1", now := 0 }
  jobId := "1"
  now := 0

def crmTeamBody : JsValue := .object [
  ("requestedOutcome", .string "Clean contacts"),
  ("definitionOfDone", .string "No contact is listed twice"),
  ("scope", .string "TEAM"),
  ("teamId", .string "crm")]

def crmTeamRequest : Request where
  draws := crmDraws "objective-1"
  auth := .authenticated crmMember
  route := .postObjectives crmTeamBody

def crmTeamEntry : StoredObjective where
  objective := newObjective "objective-1"
    (createInput "Clean contacts" "No contact is listed twice" crmTeamBody) crmMember
  organizationId := "acme"

def crmTaskBody : JsValue := .object [
  ("goal", .string "Merge the duplicates"),
  ("definitionOfDone", .string "One record for each contact")]

theorem crmTeamEntry_scope : crmTeamEntry.objective.scope = .string "TEAM" := by
  simp [crmTeamEntry, newObjective, createInput, crmTeamBody, orElse]

theorem crmTeamEntry_admits : crmTeamEntry.objective.Admits crmMember := by
  have owning : crmTeamEntry.objective.teamId = some (.string "crm") := by
    simp [crmTeamEntry, newObjective, createInput, crmTeamBody, given, isUndefined]
  exact .team crmTeamEntry_scope owning (by simp [crmMember])

theorem crmTeamEntry_stored : (final (serve Realm.plain) {} [crmTeamRequest]).objectives.lookup
    crmTeamRequest.draws.recordId = some crmTeamEntry := by
  show (createObjective Realm.plain (inMemoryDeps (crmDraws "objective-1")) crmMember crmTeamBody
    {}).2.objectives.lookup "objective-1" = some crmTeamEntry
  have hOutcome : ((crmTeamBody.orElse (.object [])).own "requestedOutcome").asString =
    some "Clean contacts" := rfl
  have hDone : ((crmTeamBody.orElse (.object [])).own "definitionOfDone").asString =
    some "No contact is listed twice" := rfl
  rw [createObjective_admitted hOutcome hDone crmTeamEntry_admits]
  rfl

theorem crmTaskBody_wellFormed : WellFormedDispatch crmTaskBody "Merge the duplicates"
    "One record for each contact" [] := by
  simp [WellFormedDispatch, crmTaskBody, orElse, asString, asStringArray]

theorem sameBoundary_iff_crm :
    SameBoundary Realm.plain (final (serve Realm.plain) {} [crmTeamRequest]) (crmDraws "task-1")
      "objective-1" crmTaskBody crmMember crmMember ↔ ¬ TeamMember crmMember crmTeamEntry :=
  sameBoundary_iff Realm.plain [crmTeamRequest] (by simp) crmTeamRequest (by simp) crmMember rfl
    crmTeamEntry crmTeamEntry_stored crmTaskBody _ _ _ crmTaskBody_wellFormed (crmDraws "task-1")
    crmMember

theorem dispatchTask_forbids_creator :
    ¬ ∀ (realm : Realm) (history : List Request),
      (history.map fun request => request.draws.recordId).Nodup →
      ∀ request ∈ history, ∀ creator, request.auth = .authenticated creator →
      ∀ entry, (final (serve realm) {} history).objectives.lookup request.draws.recordId =
        some entry →
      ∀ body goal definitionOfDone requiredCapabilities,
        WellFormedDispatch body goal definitionOfDone requiredCapabilities →
      ∀ draws principal, SameBoundary realm (final (serve realm) {} history) draws
        request.draws.recordId body creator principal := by
  intro same
  have hScoped := (recorded_final Realm.plain [crmTeamRequest]).objectives_scoped
  have both := (same Realm.plain [crmTeamRequest] (by simp) crmTeamRequest (by simp) crmMember rfl
    crmTeamEntry crmTeamEntry_stored crmTaskBody _ _ _ crmTaskBody_wellFormed (crmDraws "task-1")
    crmMember).2 rfl
  obtain ⟨objective, found, -, notTeam⟩ :=
    (serve_postTasks_queued hScoped crmTaskBody_wellFormed).mp both.1
  rw [ObjectiveMap.get_eq_some, crmTeamEntry_stored, Option.some.injEq] at found
  have scope := crmTeamEntry_scope
  rw [found] at scope
  exact notTeam scope

end Donna
