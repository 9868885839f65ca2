import Donna.ControlPlane.Access

/-! What a principal learns of objectives that it may not read: two runs of one request, on stores
that agree on the objectives that the principal may read.  Reading tells a hidden objective from a
missing one in no run; the dispatch route answers a hidden one with its scope, or with what is wrong
with the body, where it answers `objective_not_found` for a missing one. -/

namespace Donna

open Js JsValue

/-- The policy engine allows the principal to read an objective of its tenant. -/
def MayRead (realm : Realm) (principal : PrincipalContext) (objective : Objective) : Prop :=
  ∃ decision, decideOn realm principal objectiveReadAction (readResource principal objective) =
    .ok decision ∧ decision.effect = .allow

/-- Two stores have the same objectives that the principal may read. -/
def AgreeOnReadable (realm : Realm) (principal : PrincipalContext) (left right : ObjectiveMap) :
    Prop :=
  ∀ id objective, MayRead realm principal objective →
    (left.get id principal.organizationId = some objective ↔
      right.get id principal.organizationId = some objective)

/-- The in-memory services answer a request alike on two stores. -/
def SameAnswer (realm : Realm) (state : InMemory) (left right : ObjectiveMap) (request : Request) :
    Prop :=
  (serve realm { state with objectives := left } request).1 =
    (serve realm { state with objectives := right } request).1

/-- The requests of a principal that do not tell two stores apart: those that dispatch nothing, and
a dispatch under an id where the principal's tenant has objectives of one scope in both stores, or
in neither, or where it has one in both and the body is malformed. -/
inductive Indistinguishable (principal : PrincipalContext) (left right : ObjectiveMap) :
    Route → Prop
  | create (body : JsValue) : Indistinguishable principal left right (.postObjectives body)
  | read (id : String) : Indistinguishable principal left right (.getObjective id)
  | sameScope (id : String) (body : JsValue)
      (same : (left.get id principal.organizationId).map Objective.scope =
        (right.get id principal.organizationId).map Objective.scope) :
      Indistinguishable principal left right (.postTasks id body)
  | malformed (id : String) (body : JsValue)
      (inLeft : (left.get id principal.organizationId).isSome = true)
      (inRight : (right.get id principal.organizationId).isSome = true)
      (malformed : ∀ goal definitionOfDone requiredCapabilities,
        ¬ WellFormedDispatch body goal definitionOfDone requiredCapabilities) :
      Indistinguishable principal left right (.postTasks id body)

section Runs

variable {realm : Realm} {draws : Draws} {state : InMemory} {principal : PrincipalContext}
  {id : String} {body : JsValue} {left right : ObjectiveMap} {objective : Objective}

theorem mayRead_iff (hScoped : objective.Scoped) :
    MayRead realm principal objective ↔ objective.Admits principal := by
  have describes := readResource_describes principal objective
  constructor
  · rintro ⟨decision, made, allows⟩
    by_contra excluded
    obtain ⟨scope, hScope⟩ := hScoped
    rw [describes.decideOn_denied realm objectiveReadAction excluded, hScope, toStr] at made
    cases made
    cases allows
  · intro admits
    exact ⟨permitted, describes.decideOn_admitted realm objectiveReadAction_routine admits, rfl⟩

theorem ObjectiveMap.Scoped.get {store : ObjectiveMap} {organizationId : String}
    (hScoped : store.Scoped) (found : store.get id organizationId = some objective) :
    objective.Scoped :=
  hScoped id _ (ObjectiveMap.get_eq_some.mp found)

theorem AgreeOnReadable.symm (agree : AgreeOnReadable realm principal left right) :
    AgreeOnReadable realm principal right left :=
  fun id objective mayRead => (agree id objective mayRead).symm

theorem AgreeOnReadable.transfer (agree : AgreeOnReadable realm principal left right)
    (hScoped : left.Scoped) (found : left.get id principal.organizationId = some objective)
    (admits : objective.Admits principal) :
    right.get id principal.organizationId = some objective :=
  (agree id objective ((mayRead_iff (hScoped.get found)).mpr admits)).mp found

theorem readObjective_unseen (hScoped : state.objectives.Scoped)
    (unseen : ∀ objective, state.objectives.get id principal.organizationId = some objective →
      ¬ objective.Admits principal) :
    readObjective realm (inMemoryDeps draws) principal id state =
      .ok (errorResponse 404 "not_found") := by
  cases found : state.objectives.get id principal.organizationId with
  | none => exact readObjective_missing (congrArg Except.ok found)
  | some objective =>
    exact readObjective_hidden (congrArg Except.ok found) (hScoped.get found)
      (unseen objective found)

theorem readObjective_agree (hLeft : left.Scoped) (hRight : right.Scoped)
    (agree : AgreeOnReadable realm principal left right) :
    readObjective realm (inMemoryDeps draws) principal id { state with objectives := left } =
      readObjective realm (inMemoryDeps draws) principal id { state with objectives := right } := by
  by_cases seen : ∃ objective, left.get id principal.organizationId = some objective ∧
    objective.Admits principal
  · obtain ⟨objective, found, admits⟩ := seen
    have alsoFound := agree.transfer hLeft found admits
    rw [readObjective_admitted (congrArg Except.ok found) admits,
      readObjective_admitted (congrArg Except.ok alsoFound) admits]
  · have unseen : ∀ objective, left.get id principal.organizationId = some objective →
        ¬ objective.Admits principal :=
      fun objective found admits => seen ⟨objective, found, admits⟩
    have alsoUnseen : ∀ objective, right.get id principal.organizationId = some objective →
        ¬ objective.Admits principal := fun objective found admits =>
      unseen objective (agree.symm.transfer hRight found admits) admits
    rw [readObjective_unseen hLeft unseen, readObjective_unseen hRight alsoUnseen]

/-- How a dispatch is answered under an objective that the tenant has. -/
inductive DispatchAnswer (body : JsValue) (principal : PrincipalContext) (objective : Objective) :
    Except Thrown Response → Prop
  | malformed (malformed : ∀ goal definitionOfDone requiredCapabilities,
        ¬ WellFormedDispatch body goal definitionOfDone requiredCapabilities) :
      DispatchAnswer body principal objective (.ok (malformedDispatch body))
  | queued (admits : objective.Admits principal) (result : DispatchResult) :
      DispatchAnswer body principal objective (.ok (queued result))
  | denied {goal definitionOfDone : String} {requiredCapabilities : List String}
      (wellFormed : WellFormedDispatch body goal definitionOfDone requiredCapabilities)
      (scope : Scope) (hScope : objective.scope = .string scope.name) :
      DispatchAnswer body principal objective (.ok (denied (scopeDenied scope.name)))

theorem dispatchTask_found (realm : Realm) (draws : Draws) (body : JsValue) (state : InMemory)
    (found : state.objectives.get id principal.organizationId = some objective)
    (hScoped : objective.Scoped) : DispatchAnswer body principal objective
      (dispatchTask realm (inMemoryDeps draws) principal id body state).1 := by
  by_cases wellFormed : ∃ goal definitionOfDone requiredCapabilities,
    WellFormedDispatch body goal definitionOfDone requiredCapabilities
  · obtain ⟨goal, definitionOfDone, requiredCapabilities, wellFormed⟩ := wellFormed
    by_cases admits : Objective.Admits { objective with teamId := none } principal
    · rw [dispatchTask_admitted wellFormed (congrArg Except.ok found) admits]
      exact .queued (Objective.admits_without_team.mp admits).1 _
    · obtain ⟨scope, hScope⟩ := hScoped
      rw [dispatchTask_denied wellFormed (congrArg Except.ok found) hScope admits]
      exact .denied wellFormed scope hScope
  · have malformed : ∀ goal definitionOfDone requiredCapabilities,
        ¬ WellFormedDispatch body goal definitionOfDone requiredCapabilities :=
      fun _ _ _ h => wellFormed ⟨_, _, _, h⟩
    rw [dispatchTask_malformed (congrArg Except.ok found) malformed]
    exact .malformed malformed

theorem DispatchAnswer.ne_missing {outcome : Except Thrown Response}
    (answered : DispatchAnswer body principal objective outcome) :
    outcome ≠ .ok (errorResponse 404 "objective_not_found") := by
  cases answered with
  | malformed => rw [malformedDispatch]; split <;> simp [errorResponse]
  | queued => simp [Donna.queued, errorResponse]
  | denied => simp [Donna.denied, errorResponse]

theorem createObjective_agree :
    (createObjective realm (inMemoryDeps draws) principal body
      { state with objectives := left }).1 =
    (createObjective realm (inMemoryDeps draws) principal body
      { state with objectives := right }).1 := by
  simp only [createObjective]
  cases ((body.orElse (.object [])).own "requestedOutcome").asString with
  | none => rfl
  | some requestedOutcome =>
    cases ((body.orElse (.object [])).own "definitionOfDone").asString with
    | none => rfl
    | some definitionOfDone =>
      dsimp only
      cases decideOn realm principal objectiveCreateAction (createResource principal
          (createInput requestedOutcome definitionOfDone (body.orElse (.object []))).scope
          (createInput requestedOutcome definitionOfDone (body.orElse (.object []))).teamId
          (createInput requestedOutcome definitionOfDone (body.orElse (.object []))).projectId) with
      | error error => rfl
      | ok decision => dsimp only; cases refusal decision <;> rfl

theorem scopeDenied_injective {a b : Scope}
    (same : denied (scopeDenied a.name) = denied (scopeDenied b.name)) : a = b := by
  cases a <;> cases b <;> first | rfl | simp [denied, scopeDenied, Scope.name] at same

/-- Two hidden objectives are answered alike when their scopes are the same, and when the body is
malformed. -/
theorem DispatchAnswer.eq_iff {other : Objective} {first second : Except Thrown Response}
    (answered : DispatchAnswer body principal objective first)
    (otherAnswered : DispatchAnswer body principal other second)
    (hidden : ¬ objective.Admits principal) (otherHidden : ¬ other.Admits principal) :
    first = second ↔ objective.scope = other.scope ∨
      ∀ goal definitionOfDone requiredCapabilities,
        ¬ WellFormedDispatch body goal definitionOfDone requiredCapabilities := by
  cases answered with
  | queued admits => exact absurd admits hidden
  | malformed malformed =>
    cases otherAnswered with
    | queued admits => exact absurd admits otherHidden
    | malformed => exact iff_of_true rfl (.inr malformed)
    | denied wellFormed => exact absurd wellFormed (malformed _ _ _)
  | denied wellFormed scope hScope =>
    cases otherAnswered with
    | queued admits => exact absurd admits otherHidden
    | malformed malformed => exact absurd wellFormed (malformed _ _ _)
    | denied _ otherScope hOther =>
      constructor
      · intro same
        rw [hScope, hOther, scopeDenied_injective (Except.ok.inj same)]
        exact .inl rfl
      · rintro (same | malformed)
        · rw [hScope, hOther] at same
          rw [Scope.name_injective (JsValue.string.inj same)]
        · exact absurd wellFormed (malformed _ _ _)

/-- A dispatch looks at no other part of the store than the objective under its id. -/
theorem dispatchTask_congr
    (same : left.get id principal.organizationId = right.get id principal.organizationId) :
    (dispatchTask realm (inMemoryDeps draws) principal id body
      { state with objectives := left }).1 =
    (dispatchTask realm (inMemoryDeps draws) principal id body
      { state with objectives := right }).1 := by
  simp only [dispatchTask, inMemoryDeps, inMemoryObjectiveService, same]
  cases right.get id principal.organizationId with
  | none => rfl
  | some objective =>
    dsimp only
    cases ((body.orElse (.object [])).own "goal").asString with
    | none => rfl
    | some goal =>
      cases ((body.orElse (.object [])).own "definitionOfDone").asString with
      | none => rfl
      | some definitionOfDone =>
        dsimp only
        cases asStringArray ((body.orElse (.object [])).own "requiredCapabilities") with
        | none => rfl
        | some requiredCapabilities =>
          dsimp only
          cases decideOn realm principal taskDispatchAction
              (dispatchResource principal objective) with
          | error error => rfl
          | ok decision => dsimp only; cases refusal decision <;> rfl

theorem indistinguishable_postTasks_iff :
    Indistinguishable principal left right (.postTasks id body) ↔
      (left.get id principal.organizationId).map Objective.scope =
        (right.get id principal.organizationId).map Objective.scope ∨
      (left.get id principal.organizationId).isSome = true ∧
        (right.get id principal.organizationId).isSome = true ∧
        ∀ goal definitionOfDone requiredCapabilities,
          ¬ WellFormedDispatch body goal definitionOfDone requiredCapabilities := by
  constructor
  · intro indistinguishable
    cases indistinguishable with
    | sameScope _ _ same => exact .inl same
    | malformed _ _ inLeft inRight malformed => exact .inr ⟨inLeft, inRight, malformed⟩
  · rintro (same | ⟨inLeft, inRight, malformed⟩)
    · exact .sameScope id body same
    · exact .malformed id body inLeft inRight malformed

/-- When a dispatch tells two stores apart that agree on what the principal may read. -/
theorem dispatchTask_agree_iff (hLeft : left.Scoped) (hRight : right.Scoped)
    (agree : AgreeOnReadable realm principal left right) :
    (dispatchTask realm (inMemoryDeps draws) principal id body
      { state with objectives := left }).1 =
    (dispatchTask realm (inMemoryDeps draws) principal id body
      { state with objectives := right }).1 ↔
    Indistinguishable principal left right (.postTasks id body) := by
  rw [indistinguishable_postTasks_iff]
  cases inLeft : left.get id principal.organizationId with
  | none =>
    cases inRight : right.get id principal.organizationId with
    | none => exact iff_of_true (dispatchTask_congr (inLeft.trans inRight.symm)) (.inl rfl)
    | some other =>
      have answered := dispatchTask_found realm draws body
        { state with objectives := right } inRight (hRight.get inRight)
      rw [dispatchTask_missing (congrArg Except.ok inLeft)]
      exact iff_of_false answered.ne_missing.symm (by simp)
  | some objective =>
    have answered := dispatchTask_found realm draws body
      { state with objectives := left } inLeft (hLeft.get inLeft)
    cases inRight : right.get id principal.organizationId with
    | none =>
      have missing : (dispatchTask realm (inMemoryDeps draws) principal id body
          { state with objectives := right }).1 = .ok (errorResponse 404 "objective_not_found") :=
        congrArg Prod.fst (dispatchTask_missing (congrArg Except.ok inRight))
      rw [missing]
      exact iff_of_false answered.ne_missing (by simp)
    | some other =>
      have otherAnswered := dispatchTask_found realm draws body
        { state with objectives := right } inRight (hRight.get inRight)
      by_cases seen : objective.Admits principal ∨ other.Admits principal
      · have sameObjective : objective = other := by
          rcases seen with admits | admits
          · have found := agree.transfer hLeft inLeft admits
            exact Option.some.inj (found.symm.trans inRight)
          · have found := agree.symm.transfer hRight inRight admits
            exact Option.some.inj (inLeft.symm.trans found)
        subst sameObjective
        exact iff_of_true (dispatchTask_congr (inLeft.trans inRight.symm)) (.inl rfl)
      · obtain ⟨hidden, otherHidden⟩ := not_or.mp seen
        rw [answered.eq_iff otherAnswered hidden otherHidden]
        simp

end Runs

/-- Stores that agree on what the principal may read answer a request of the principal alike if and
only if the request does not tell them apart. -/
theorem serve_agree_iff (realm : Realm) (state : InMemory) (principal : PrincipalContext)
    (left right : ObjectiveMap) (hLeft : left.Scoped) (hRight : right.Scoped)
    (agree : AgreeOnReadable realm principal left right) (draws : Draws) (route : Route) :
    SameAnswer realm state left right ⟨draws, .authenticated principal, route⟩ ↔
      Indistinguishable principal left right route := by
  cases route with
  | postObjectives body => exact iff_of_true createObjective_agree (.create body)
  | getObjective id => exact iff_of_true (readObjective_agree hLeft hRight agree) (.read id)
  | postTasks id body => exact dispatchTask_agree_iff hLeft hRight agree

/-! ### A private objective -/

/-- A private objective of a colleague. -/
def privateEntry : StoredObjective where
  objective := newObjective "objective-2" {
    requestedOutcome := "Prepare the review"
    definitionOfDone := "The review is written"
    scope := .string "PRIVATE"
    riskLevel := .string "low"
    projectId := none
    teamId := none } { crmMember with userId := "bob" }
  organizationId := "acme"

def privateStore : ObjectiveMap := [("objective-2", privateEntry)]

theorem privateStore_lookup {id : String} {entry : StoredObjective}
    (listed : privateStore.lookup id = some entry) : entry = privateEntry := by
  rw [privateStore, lookup_field] at listed
  split at listed
  · exact (Option.some.inj listed).symm
  · cases listed

theorem privateStore_scoped : privateStore.Scoped := by
  intro id entry listed
  rw [privateStore_lookup listed]
  exact ⟨.private_, rfl⟩

theorem emptyStore_scoped : ObjectiveMap.Scoped [] := fun _ _ listed => nomatch listed

theorem privateEntry_hidden : ¬ privateEntry.objective.Admits crmMember := by
  rw [Objective.admits_iff]
  simp [privateEntry, newObjective, crmMember]

theorem privateStore_agree (realm : Realm) : AgreeOnReadable realm crmMember [] privateStore := by
  intro id objective mayRead
  refine iff_of_false (fun found => nomatch found) fun found => ?_
  rw [ObjectiveMap.get_eq_some] at found
  have entry := congrArg StoredObjective.objective (privateStore_lookup found)
  dsimp only at entry
  subst entry
  exact privateEntry_hidden ((mayRead_iff (privateStore_scoped.get
    (ObjectiveMap.get_eq_some.mpr found))).mp mayRead)

theorem serve_agree_iff_private :
    SameAnswer Realm.plain {} [] privateStore
        ⟨crmDraws "task-1", .authenticated crmMember, .postTasks "objective-2" crmTaskBody⟩ ↔
      Indistinguishable crmMember [] privateStore (.postTasks "objective-2" crmTaskBody) :=
  serve_agree_iff Realm.plain {} crmMember [] privateStore emptyStore_scoped privateStore_scoped
    (privateStore_agree Realm.plain) (crmDraws "task-1") (.postTasks "objective-2" crmTaskBody)

theorem dispatchTask_reveals_private :
    ¬ ∀ (realm : Realm) (state : InMemory) (principal : PrincipalContext)
      (left right : ObjectiveMap), left.Scoped → right.Scoped →
      AgreeOnReadable realm principal left right → ∀ draws id body,
        SameAnswer realm state left right ⟨draws, .authenticated principal, .getObjective id⟩ ∧
        SameAnswer realm state left right
          ⟨draws, .authenticated principal, .postTasks id body⟩ := by
  intro same
  have answers := (same Realm.plain {} crmMember [] privateStore emptyStore_scoped
    privateStore_scoped (privateStore_agree Realm.plain) (crmDraws "task-1") "objective-2"
    crmTaskBody).2
  have found : privateStore.get "objective-2" crmMember.organizationId =
      some privateEntry.objective := ObjectiveMap.get_eq_some.mpr rfl
  have answered := dispatchTask_found Realm.plain (crmDraws "task-1") crmTaskBody
    { objectives := privateStore } found ⟨.private_, rfl⟩
  exact answered.ne_missing answers.symm

end Donna
