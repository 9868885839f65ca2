import Donna.Base.Machine
import Donna.ControlPlane.Access
import Donna.ControlPlane.ObjectiveRows

/-! The objective service over the database beside the one in memory.  The mappers store the team of
every objective and surface it for the TEAM scope only, and the columns hold ids in one notation, so
the services agree just as long as no read tells. -/

namespace Donna

open Js JsValue Machine

/-- `DrizzleObjectiveService`: the row and its event in one transaction. -/
def drizzleObjectiveService (uuid : UuidType) (draws : Draws) :
    ObjectiveService ObjectiveDatabase where
  create input principal db :=
    let objective := newObjective draws.recordId input principal
    match db.insertObjective uuid (objectiveToRow objective principal.organizationId) with
    | .error error => (.error error, db)
    | .ok inserted =>
      (.ok objective, inserted.insertEvents [eventEnvelopeToRow (objectiveCreated draws principal)])
  get id organizationId db := do
    let row ← db.selectObjective uuid id organizationId
    pure (row.map rowToObjective)

/-! ### Calls -/

inductive ObjectiveRequest
  | create (input : CreateObjectiveInput) (principal : PrincipalContext)
  | get (id organizationId : String)

/-- A call of a service, with what it draws. -/
structure ObjectiveCall where
  draws : Draws
  request : ObjectiveRequest

def answerCall {σ : Type} (service : Draws → ObjectiveService σ) (state : σ)
    (call : ObjectiveCall) : Except Thrown (Option Objective) × σ :=
  match call.request with
  | .create input principal =>
    (some <$> ((service call.draws).create input principal state).1,
      ((service call.draws).create input principal state).2)
  | .get id organizationId => ((service call.draws).get id organizationId state, state)

/-- What a service returns to a history of calls. -/
def answers {σ : Type} (service : Draws → ObjectiveService σ) (start : σ)
    (calls : List ObjectiveCall) : List (Except Thrown (Option Objective)) :=
  (visits (answerCall service) start calls).map (·.output)

/-- The id that a call generates for what it creates. -/
def ObjectiveCall.created (call : ObjectiveCall) : Option String :=
  match call.request with
  | .create _ _ => some call.draws.recordId
  | .get _ _ => none

/-- The reference column of an optional id. -/
inductive DenotesOptional (uuid : UuidType) : Option JsValue → Option String → Prop
  | none : DenotesOptional uuid none none
  | some {text id : String} (denotes : uuid.read text = some id) :
      DenotesOptional uuid (some (.string text)) (some id)

/-- The row that describes a well-typed input. -/
structure DescribedBy (uuid : UuidType) (draws : Draws) (input : CreateObjectiveInput)
    (principal : PrincipalContext) (row : ObjectiveRow) : Prop where
  generated : uuid.read draws.recordId = some draws.recordId
  id : row.id = draws.recordId
  organizationId : uuid.read principal.organizationId = some row.organizationId
  scope : input.scope = .string row.scope.name
  scopeRef : DenotesOptional uuid input.teamId row.scopeRef
  requesterId : uuid.read principal.userId = some row.requesterId
  ownerId : row.ownerId = row.requesterId
  projectId : DenotesOptional uuid input.projectId row.projectId
  requestedOutcome : row.requestedOutcome = input.requestedOutcome
  definitionOfDone : row.definitionOfDone = input.definitionOfDone
  status : row.status = .draft
  riskLevel : input.riskLevel = .string row.riskLevel.name

/-- A call whose arguments have their types, with valid ids that satisfy the foreign keys. -/
def ObjectiveCall.WellTyped (uuid : UuidType) (tenancy : TenancyTables) (call : ObjectiveCall) :
    Prop :=
  match call.request with
  | .create input principal =>
    ∃ row, DescribedBy uuid call.draws input principal row ∧ row.References tenancy
  | .get id organizationId => (uuid.read id).isSome ∧ (uuid.read organizationId).isSome

/-! ### When the services agree -/

/-- A text that the database would give back as it is. -/
def UuidType.IsCanonical (uuid : UuidType) (value : JsValue) : Prop :=
  ∀ text, value = .string text → uuid.read text = some text

/-- A read gives back what an input set: the ids are canonical, and there is no team unless the
scope is TEAM. -/
structure Surfaced (uuid : UuidType) (input : CreateObjectiveInput) (principal : PrincipalContext) :
    Prop where
  user : uuid.read principal.userId = some principal.userId
  project : ∀ value ∈ input.projectId, uuid.IsCanonical value
  team : ∀ value ∈ input.teamId, input.scope = .string Scope.team.name ∧ uuid.IsCanonical value

/-- A later call does not tell the services apart by what an earlier one created: a read of that
names it by its very ids, and reads what was set. -/
def ReadsBack (uuid : UuidType) (earlier later : ObjectiveCall) : Prop :=
  ∀ input principal id organizationId, earlier.request = .create input principal →
    later.request = .get id organizationId → uuid.read id = some earlier.draws.recordId →
      uuid.read organizationId = uuid.read principal.organizationId →
        id = earlier.draws.recordId ∧ organizationId = principal.organizationId ∧
          Surfaced uuid input principal

def ObjectiveCall.Storable (call : ObjectiveCall) : Prop :=
  ∀ input principal, call.request = .create input principal →
    Donna.Storable input.requestedOutcome ∧ Donna.Storable input.definitionOfDone

/-! ### One row -/

section Rows

variable {uuid : UuidType} {draws : Draws} {input : CreateObjectiveInput}
  {principal : PrincipalContext} {row : ObjectiveRow}

theorem uuidColumn_ok {text id : String} (denotes : uuid.read text = some id) :
    uuidColumn uuid text = .ok id := by
  rw [uuidColumn, denotes]
  rfl

theorem DenotesOptional.column {value : Option JsValue} {reference : Option String}
    (denotes : DenotesOptional uuid value reference) :
    nullableUuidColumn uuid value = .ok reference := by
  cases denotes with
  | none => rfl
  | some denotes =>
    rw [nullableUuidColumn, uuidColumn_ok denotes]
    rfl

theorem enumColumn_name {α : Type} {all : List α} {name : α → String} {byDefault item : α}
    (injective : Function.Injective name) (listed : item ∈ all) :
    enumColumn all name byDefault (.string (name item)) = .ok item := by
  rw [enumColumn]
  cases found : all.find? fun other => name other = name item with
  | none => simpa using List.find?_eq_none.mp found item listed
  | some other =>
    have same : name other = name item := by simpa using List.find?_some found
    rw [injective same]
    rfl

theorem Scope.mem_all (scope : Scope) : scope ∈ Scope.all := by
  cases scope <;> decide

theorem RiskLevel.mem_all (riskLevel : RiskLevel) : riskLevel ∈ RiskLevel.all := by
  cases riskLevel <;> decide

theorem DescribedBy.row_eq (described : DescribedBy uuid draws input principal row) :
    { row with
      id := draws.recordId
      ownerId := row.requesterId
      requestedOutcome := input.requestedOutcome
      definitionOfDone := input.definitionOfDone
      status := .draft } = row := by
  cases row
  simp only [ObjectiveRow.mk.injEq, true_and, and_true]
  exact ⟨described.id.symm, described.ownerId.symm, described.requestedOutcome.symm,
    described.definitionOfDone.symm, described.status.symm⟩

/-- A well-typed input is stored as the row that describes it, unless its texts are not storable. -/
theorem DescribedBy.readRow (described : DescribedBy uuid draws input principal row) :
    Donna.readRow uuid (objectiveToRow (newObjective draws.recordId input principal)
        principal.organizationId) =
      if Storable input.requestedOutcome ∧ Storable input.definitionOfDone then .ok row
      else .error (databaseError "22021") := by
  have scope : enumColumn Scope.all Scope.name .organization input.scope = .ok row.scope := by
    rw [described.scope, enumColumn_name Scope.name_injective row.scope.mem_all]
  have riskLevel : enumColumn RiskLevel.all RiskLevel.name .low input.riskLevel =
      .ok row.riskLevel := by
    rw [described.riskLevel, enumColumn_name RiskLevel.name_injective row.riskLevel.mem_all]
  simp only [Donna.readRow, objectiveToRow, newObjective, uuidColumn_ok described.generated,
    uuidColumn_ok described.organizationId, scope, described.scopeRef.column,
    uuidColumn_ok described.requesterId, described.projectId.column, riskLevel, ok_bind]
  by_cases outcome : Storable input.requestedOutcome <;>
    by_cases done : Storable input.definitionOfDone <;>
    simp only [textColumn, outcome, done, if_true, if_false, and_self, and_true, and_false,
      pure_except, throw_except, ok_bind, error_bind]
  exact congrArg Except.ok described.row_eq

theorem DenotesOptional.map_eq_iff {value : Option JsValue} {reference : Option String}
    (denotes : DenotesOptional uuid value reference) :
    reference.map .string = value ↔ ∀ given ∈ value, uuid.IsCanonical given := by
  cases denotes with
  | none => simp
  | some denotes => simp [UuidType.IsCanonical, denotes]

/-- What is read of a row is what was created exactly when its input is surfaced. -/
theorem DescribedBy.rowToObjective_iff (described : DescribedBy uuid draws input principal row) :
    rowToObjective row = newObjective draws.recordId input principal ↔
      Surfaced uuid input principal := by
  have user : row.requesterId = principal.userId ↔
      uuid.read principal.userId = some principal.userId := by
    rw [described.requesterId, Option.some.injEq]
  have team : (if row.scope = .team then row.scopeRef.map JsValue.string else none) =
      input.teamId ↔ ∀ given ∈ input.teamId,
        input.scope = .string Scope.team.name ∧ uuid.IsCanonical given := by
    by_cases isTeam : row.scope = .team
    · rw [if_pos isTeam, described.scopeRef.map_eq_iff, described.scope, isTeam]
      simp
    · have other : input.scope ≠ .string Scope.team.name := by
        rw [described.scope]
        exact fun same => isTeam (Scope.name_injective (JsValue.string.inj same))
      rw [if_neg isTeam, eq_comm, Option.eq_none_iff_forall_not_mem]
      simp [other]
  simp only [rowToObjective, newObjective, Objective.mk.injEq, described.id, described.ownerId,
    described.requestedOutcome, described.definitionOfDone, described.status, ← described.scope,
    ← described.riskLevel, described.projectId.map_eq_iff, user, team, true_and, and_self_left]
  constructor
  · rintro ⟨hUser, hProject, hTeam⟩
    exact ⟨hUser, hProject, hTeam⟩
  · intro surfaced
    exact ⟨surfaced.user, surfaced.project, surfaced.team⟩

end Rows

/-! ### The two services side by side -/

/-- What an earlier call created. -/
structure Creation where
  draws : Draws
  input : CreateObjectiveInput
  principal : PrincipalContext

def Creation.call (creation : Creation) : ObjectiveCall :=
  ⟨creation.draws, .create creation.input creation.principal⟩

def Creation.entry (creation : Creation) : String × StoredObjective :=
  (creation.draws.recordId,
    ⟨newObjective creation.draws.recordId creation.input creation.principal,
      creation.principal.organizationId⟩)

abbrev Creation.DescribedBy (uuid : UuidType) (creation : Creation) (row : ObjectiveRow) : Prop :=
  Donna.DescribedBy uuid creation.draws creation.input creation.principal row

/-- The two states hold what was created, the latest first. -/
structure Holds (uuid : UuidType) (tenancy : TenancyTables) (creations : List Creation)
    (db : ObjectiveDatabase) (memory : InMemory) : Prop where
  tenancy : db.tenancy = tenancy
  stored : ∀ creation ∈ creations, ∃ row ∈ db.objectives, creation.DescribedBy uuid row
  created : ∀ row ∈ db.objectives, ∃ creation ∈ creations, creation.DescribedBy uuid row
  entries : memory.objectives = creations.map Creation.entry
  distinct : (creations.map (·.draws.recordId)).Nodup

section Simulation

variable {uuid : UuidType} {tenancy : TenancyTables} {creations : List Creation}
  {db : ObjectiveDatabase} {memory : InMemory} {draws : Draws} {input : CreateObjectiveInput}
  {principal : PrincipalContext} {row : ObjectiveRow} {id organizationId : String}

theorem insertObjective_ok {insert : ObjectiveInsert} (read : readRow uuid insert = .ok row)
    (fresh : ∀ other ∈ db.objectives, other.id ≠ row.id) (refers : row.References db.tenancy) :
    ∃ inserted, db.insertObjective uuid insert = .ok inserted ∧
      inserted.objectives = db.objectives ++ [row] ∧ inserted.tenancy = db.tenancy := by
  rw [ObjectiveDatabase.insertObjective, read, ok_bind, dif_pos fresh, dif_pos refers]
  exact ⟨_, rfl, rfl, rfl⟩

theorem Holds.create (holds : Holds uuid tenancy creations db memory)
    (fresh : draws.recordId ∉ creations.map (·.draws.recordId))
    (described : DescribedBy uuid draws input principal row) (refers : row.References tenancy)
    (storable : Storable input.requestedOutcome ∧ Storable input.definitionOfDone) :
    ((drizzleObjectiveService uuid draws).create input principal db).1 =
        .ok (newObjective draws.recordId input principal) ∧
      Holds uuid tenancy (⟨draws, input, principal⟩ :: creations)
        ((drizzleObjectiveService uuid draws).create input principal db).2
        ((inMemoryObjectiveService draws).create input principal memory).2 := by
  have read := described.readRow
  rw [if_pos storable] at read
  have unused : ∀ other ∈ db.objectives, other.id ≠ row.id := by
    intro other listed same
    obtain ⟨creation, hCreation, hOther⟩ := holds.created other listed
    refine fresh (List.mem_map.mpr ⟨creation, hCreation, ?_⟩)
    rw [← hOther.id, same, described.id]
  obtain ⟨inserted, hInserted, objectives, hTenancy⟩ :=
    insertObjective_ok read unused (holds.tenancy ▸ refers)
  simp only [drizzleObjectiveService, hInserted]
  refine ⟨trivial, ?_⟩
  constructor
  · exact hTenancy.trans holds.tenancy
  · intro creation listed
    rw [ObjectiveDatabase.insertEvents, objectives]
    rcases List.mem_cons.mp listed with rfl | earlier
    · exact ⟨row, by simp, described⟩
    · obtain ⟨other, hOther, hDescribed⟩ := holds.stored creation earlier
      exact ⟨other, List.mem_append_left _ hOther, hDescribed⟩
  · intro other listed
    rw [ObjectiveDatabase.insertEvents, objectives] at listed
    rcases List.mem_append.mp listed with earlier | new
    · obtain ⟨creation, hCreation, hDescribed⟩ := holds.created other earlier
      exact ⟨creation, List.mem_cons_of_mem _ hCreation, hDescribed⟩
    · exact ⟨_, List.mem_cons_self, List.mem_singleton.mp new ▸ described⟩
  · exact congrArg (_ :: ·) holds.entries
  · exact List.nodup_cons.mpr ⟨fresh, holds.distinct⟩

theorem create_unstorable (described : DescribedBy uuid draws input principal row)
    (unstorable : ¬ (Storable input.requestedOutcome ∧ Storable input.definitionOfDone)) :
    ((drizzleObjectiveService uuid draws).create input principal db).1 =
      .error (databaseError "22021") := by
  have read := described.readRow
  rw [if_neg unstorable] at read
  simp only [drizzleObjectiveService, ObjectiveDatabase.insertObjective, read, error_bind]

/-! ### Reads -/

theorem selectObjective_eq {idText organizationText : String} (hId : uuid.read idText = some id)
    (hOrganization : uuid.read organizationText = some organizationId) :
    (drizzleObjectiveService uuid draws).get idText organizationText db =
      .ok ((db.objectives.find? fun row => row.id = id ∧ row.organizationId = organizationId).map
        rowToObjective) := by
  simp only [drizzleObjectiveService, ObjectiveDatabase.selectObjective, uuidColumn_ok hId,
    uuidColumn_ok hOrganization, ok_bind, pure_except]

theorem find_objective : (db.objectives.find? fun row =>
      row.id = id ∧ row.organizationId = organizationId) = some row ↔
    row ∈ db.objectives ∧ row.id = id ∧ row.organizationId = organizationId := by
  have selects : ∀ row : ObjectiveRow, decide (row.id = id ∧ row.organizationId = organizationId) =
      true → some row.id = some id := by
    intro row selected
    rw [(of_decide_eq_true selected).1]
  rw [db.primaryKey.find?_of_selects id selects, decide_eq_true_eq]

theorem Holds.memory_get (holds : Holds uuid tenancy creations db memory) {objective : Objective} :
    memory.objectives.get id organizationId = some objective ↔
      ∃ creation ∈ creations, creation.draws.recordId = id ∧
        creation.principal.organizationId = organizationId ∧
        newObjective id creation.input creation.principal = objective := by
  have distinct : (memory.objectives.map Prod.fst).Nodup := by
    rw [holds.entries, List.map_map]
    exact holds.distinct
  rw [ObjectiveMap.get_eq_some, Tables.lookup_eq_some distinct, holds.entries, List.mem_map]
  refine exists_congr fun creation => and_congr_right fun _ => ?_
  simp only [Creation.entry, Prod.mk.injEq, StoredObjective.mk.injEq]
  constructor
  · rintro ⟨rfl, hObjective, hOrganization⟩
    exact ⟨rfl, hOrganization, hObjective⟩
  · rintro ⟨rfl, hOrganization, hObjective⟩
    exact ⟨rfl, hObjective, hOrganization⟩

theorem Holds.generated (holds : Holds uuid tenancy creations db memory) {creation : Creation}
    (listed : creation ∈ creations) :
    uuid.read creation.draws.recordId = some creation.draws.recordId := by
  obtain ⟨row, -, described⟩ := holds.stored creation listed
  exact described.generated

theorem Holds.creation_eq (holds : Holds uuid tenancy creations db memory)
    {creation other : Creation} (listed : creation ∈ creations) (listed' : other ∈ creations)
    (same : creation.draws.recordId = other.draws.recordId) : creation = other :=
  List.inj_on_of_nodup_map holds.distinct listed listed' same

/-- A read has the same answer of the two services exactly when it tells nothing of what was
created. -/
theorem Holds.get_iff (holds : Holds uuid tenancy creations db memory) (draws : Draws)
    (hId : (uuid.read id).isSome) (hOrganization : (uuid.read organizationId).isSome) :
    (drizzleObjectiveService uuid draws).get id organizationId db =
        (inMemoryObjectiveService draws).get id organizationId memory ↔
      ∀ creation ∈ creations, ReadsBack uuid creation.call ⟨draws, .get id organizationId⟩ := by
  obtain ⟨recordId, hId⟩ := Option.isSome_iff_exists.mp hId
  obtain ⟨tenant, hOrganization⟩ := Option.isSome_iff_exists.mp hOrganization
  have answer : (inMemoryObjectiveService draws).get id organizationId memory =
    .ok (memory.objectives.get id organizationId) := rfl
  rw [selectObjective_eq hId hOrganization, answer, Except.ok.injEq]
  cases found : db.objectives.find? fun row => row.id = recordId ∧ row.organizationId = tenant with
  | none =>
    have unmatched : ∀ creation ∈ creations, uuid.read id = some creation.draws.recordId →
        uuid.read organizationId ≠ uuid.read creation.principal.organizationId := by
      intro creation listed sameId sameTenant
      obtain ⟨row, hRow, described⟩ := holds.stored creation listed
      refine List.find?_eq_none.mp found row hRow (decide_eq_true ⟨?_, ?_⟩)
      · rw [described.id]
        exact Option.some.inj (sameId.symm.trans hId)
      · rw [hOrganization, described.organizationId] at sameTenant
        exact (Option.some.inj sameTenant).symm
    refine iff_of_true ?_ ?_
    · rw [Option.map_none, eq_comm, Option.eq_none_iff_forall_ne_some]
      intro objective stored
      obtain ⟨creation, listed, rfl, rfl, -⟩ := holds.memory_get.mp stored
      exact unmatched creation listed (holds.generated listed) rfl
    · rintro creation listed _ _ _ _ ⟨⟩ ⟨⟩ sameId sameTenant
      exact absurd sameTenant (unmatched creation listed sameId)
  | some row =>
    obtain ⟨hRow, rfl, rfl⟩ := find_objective.mp found
    obtain ⟨creation, listed, described⟩ := holds.created row hRow
    rw [Option.map_some, eq_comm, holds.memory_get]
    constructor
    · rintro ⟨stored, hStored, rfl, rfl, hObjective⟩ other hOther _ _ _ _ ⟨⟩ ⟨⟩ sameId -
      have generated := holds.generated hStored
      obtain rfl := holds.creation_eq hStored hOther
        (Option.some.inj (generated.symm.trans sameId))
      have same : row.id = stored.draws.recordId := Option.some.inj (hId.symm.trans generated)
      obtain rfl := holds.creation_eq listed hStored (described.id.symm.trans same)
      exact ⟨rfl, rfl, described.rowToObjective_iff.mp hObjective.symm⟩
    · intro readsBack
      have sameId : uuid.read id = some creation.draws.recordId := by rw [hId, described.id]
      have sameTenant : uuid.read organizationId = uuid.read creation.principal.organizationId := by
        rw [hOrganization, described.organizationId]
      obtain ⟨rfl, rfl, surfaced⟩ :=
        readsBack creation listed _ _ _ _ rfl rfl sameId sameTenant
      exact ⟨creation, listed, rfl, rfl, (described.rowToObjective_iff.mpr surfaced).symm⟩

/-! ### Histories of calls -/

theorem readsBack_of_get {earlier later : ObjectiveCall} (read : earlier.created = none) :
    ReadsBack uuid earlier later := by
  intro input principal _ _ created
  simp [ObjectiveCall.created, created] at read

theorem readsBack_create {earlier : ObjectiveCall} :
    ReadsBack uuid earlier ⟨draws, .create input principal⟩ :=
  fun _ _ _ _ _ later => nomatch later

theorem answers_cons {σ : Type} (service : Draws → ObjectiveService σ) (state : σ)
    (call : ObjectiveCall) (rest : List ObjectiveCall) :
    answers service state (call :: rest) = (answerCall service state call).1 ::
      answers service (answerCall service state call).2 rest := rfl

theorem answers_eq_iff {calls : List ObjectiveCall}
    (holds : Holds uuid tenancy creations db memory)
    (wellTyped : ∀ call ∈ calls, call.WellTyped uuid tenancy)
    (distinct : (calls.filterMap ObjectiveCall.created).Nodup)
    (apart : ∀ creation ∈ creations,
      creation.draws.recordId ∉ calls.filterMap ObjectiveCall.created) :
    answers (drizzleObjectiveService uuid) db calls =
        answers inMemoryObjectiveService memory calls ↔
      (∀ call ∈ calls, call.Storable) ∧ calls.Pairwise (ReadsBack uuid) ∧
        ∀ creation ∈ creations, ∀ call ∈ calls, ReadsBack uuid creation.call call := by
  induction calls generalizing creations db memory with
  | nil => simp [answers, visits]
  | cons call rest ih =>
    obtain ⟨hCall, hRest⟩ := List.forall_mem_cons.mp wellTyped
    rw [answers_cons, answers_cons, List.cons.injEq, List.forall_mem_cons, List.pairwise_cons]
    obtain ⟨draws, request⟩ := call
    cases request with
    | create input principal =>
      obtain ⟨row, described, refers⟩ := hCall
      have created : ObjectiveCall.created ⟨draws, .create input principal⟩ =
        some draws.recordId := rfl
      rw [List.filterMap_cons_some created] at distinct apart
      obtain ⟨new, distinct⟩ := List.nodup_cons.mp distinct
      have fresh : draws.recordId ∉ creations.map (·.draws.recordId) := by
        intro listed
        obtain ⟨creation, hCreation, same⟩ := List.mem_map.mp listed
        exact apart creation hCreation (same ▸ List.mem_cons_self)
      by_cases storable : Storable input.requestedOutcome ∧ Storable input.definitionOfDone
      · obtain ⟨answer, next⟩ := holds.create fresh described refers storable
        have head : (answerCall (drizzleObjectiveService uuid) db
              ⟨draws, .create input principal⟩).1 =
            (answerCall inMemoryObjectiveService memory ⟨draws, .create input principal⟩).1 :=
          congrArg (some <$> ·) answer
        have stores : ObjectiveCall.Storable ⟨draws, .create input principal⟩ := by
          rintro _ _ ⟨⟩
          exact storable
        have later := ih next hRest distinct (List.forall_mem_cons.mpr ⟨new, fun creation listed =>
          fun again => apart creation listed (List.mem_cons_of_mem _ again)⟩)
        refine (and_iff_right head).trans (later.trans ?_)
        simp only [List.forall_mem_cons, readsBack_create, stores, true_and]
        tauto
      · refine iff_of_false ?_ ?_
        · rintro ⟨head, -⟩
          simp only [answerCall, create_unstorable described storable] at head
          cases head
        · rintro ⟨⟨stores, -⟩, -⟩
          exact storable (stores input principal rfl)
    | get id organizationId =>
      have stores : ObjectiveCall.Storable ⟨draws, .get id organizationId⟩ := by
        intro input principal created
        cases created
      have earlier : ∀ later ∈ rest, ReadsBack uuid ⟨draws, .get id organizationId⟩ later :=
        fun later _ => readsBack_of_get rfl
      have head := holds.get_iff draws hCall.1 hCall.2
      refine (and_congr head (ih holds hRest distinct apart)).trans ?_
      simp only [List.forall_mem_cons, stores, true_and]
      constructor
      · rintro ⟨here, storable, pairwise, readsBack⟩
        exact ⟨storable, ⟨earlier, pairwise⟩, fun creation listed =>
          ⟨here creation listed, readsBack creation listed⟩⟩
      · rintro ⟨storable, ⟨-, pairwise⟩, readsBack⟩
        exact ⟨fun creation listed => (readsBack creation listed).1, storable, pairwise,
          fun creation listed => (readsBack creation listed).2⟩

end Simulation

/-- A database with the tenancy tables and no objectives. -/
def ObjectiveDatabase.empty (tenancy : TenancyTables) : ObjectiveDatabase where
  tenancy := tenancy
  objectives := []
  events := []
  primaryKey := List.nodup_nil
  references _ listed := nomatch listed

theorem Holds.empty (uuid : UuidType) (tenancy : TenancyTables) :
    Holds uuid tenancy [] (.empty tenancy) {} where
  tenancy := rfl
  stored _ listed := nomatch listed
  created _ listed := nomatch listed
  entries := rfl
  distinct := List.nodup_nil

/-- The services answer a history of well-typed calls alike exactly when the database can store its
texts and no read tells the services apart by what was created before it. -/
theorem drizzleObjectives_refine_iff (uuid : UuidType) (tenancy : TenancyTables)
    (calls : List ObjectiveCall) (wellTyped : ∀ call ∈ calls, call.WellTyped uuid tenancy)
    (distinct : (calls.filterMap ObjectiveCall.created).Nodup) :
    answers (drizzleObjectiveService uuid) (.empty tenancy) calls =
        answers inMemoryObjectiveService {} calls ↔
      (∀ call ∈ calls, call.Storable) ∧ calls.Pairwise (ReadsBack uuid) := by
  rw [answers_eq_iff (.empty uuid tenancy) wellTyped distinct fun _ listed => nomatch listed]
  simp

/-! ### A team outside the TEAM scope -/

/-- The ids of a list, each in its canonical text. -/
def UuidType.among (ids : List String) : UuidType where
  read text := if text ∈ ids then some text else none
  canonical read := by
    split at read
    · next listed =>
      obtain rfl := Option.some.inj read
      exact if_pos listed
    · cases read

def acmeIds : UuidType := .among [
  "7d3f6f0e-2f7c-4b0a-9c66-0b8f6f6f0a01", "7d3f6f0e-2f7c-4b0a-9c66-0b8f6f6f0a02",
  "7d3f6f0e-2f7c-4b0a-9c66-0b8f6f6f0a03", "7d3f6f0e-2f7c-4b0a-9c66-0b8f6f6f0a04"]

def acmeTenancy : TenancyTables where
  organizations := [⟨"7d3f6f0e-2f7c-4b0a-9c66-0b8f6f6f0a01", "Acme", "acme", none⟩]
  users := [⟨"7d3f6f0e-2f7c-4b0a-9c66-0b8f6f6f0a02", "7d3f6f0e-2f7c-4b0a-9c66-0b8f6f6f0a01",
    "ada@acme.test", "Ada", none⟩]

/-- An objective of the whole organization that names a team. -/
def acmeInput : CreateObjectiveInput where
  requestedOutcome := "Clean contacts"
  definitionOfDone := "No contact is listed twice"
  scope := .string "ORGANIZATION"
  riskLevel := .string "low"
  projectId := none
  teamId := some (.string "7d3f6f0e-2f7c-4b0a-9c66-0b8f6f6f0a03")

def acmePrincipal : PrincipalContext :=
  { crmMember with
    userId := "7d3f6f0e-2f7c-4b0a-9c66-0b8f6f6f0a02"
    organizationId := "7d3f6f0e-2f7c-4b0a-9c66-0b8f6f6f0a01" }

def acmeCalls : List ObjectiveCall := [
  ⟨crmDraws "7d3f6f0e-2f7c-4b0a-9c66-0b8f6f6f0a04", .create acmeInput acmePrincipal⟩,
  ⟨crmDraws "unused", .get "7d3f6f0e-2f7c-4b0a-9c66-0b8f6f6f0a04"
    "7d3f6f0e-2f7c-4b0a-9c66-0b8f6f6f0a01"⟩]

theorem acmeCalls_wellTyped : ∀ call ∈ acmeCalls, call.WellTyped acmeIds acmeTenancy := by
  refine List.forall_mem_cons.mpr ⟨?_, List.forall_mem_cons.mpr ⟨⟨by decide, by decide⟩, by simp⟩⟩
  refine ⟨{
    id := "7d3f6f0e-2f7c-4b0a-9c66-0b8f6f6f0a04"
    organizationId := "7d3f6f0e-2f7c-4b0a-9c66-0b8f6f6f0a01"
    scope := .organization
    scopeRef := some "7d3f6f0e-2f7c-4b0a-9c66-0b8f6f6f0a03"
    requesterId := "7d3f6f0e-2f7c-4b0a-9c66-0b8f6f6f0a02"
    ownerId := "7d3f6f0e-2f7c-4b0a-9c66-0b8f6f6f0a02"
    projectId := none
    requestedOutcome := "Clean contacts"
    definitionOfDone := "No contact is listed twice"
    status := .draft
    riskLevel := .low }, ?_, by decide⟩
  exact {
    generated := by decide
    id := rfl
    organizationId := by decide
    scope := rfl
    scopeRef := .some (by decide)
    requesterId := by decide
    ownerId := rfl
    projectId := .none
    requestedOutcome := rfl
    definitionOfDone := rfl
    status := rfl
    riskLevel := rfl }

theorem drizzleObjectives_refine_iff_acme :
    answers (drizzleObjectiveService acmeIds) (.empty acmeTenancy) acmeCalls =
        answers inMemoryObjectiveService {} acmeCalls ↔
      (∀ call ∈ acmeCalls, call.Storable) ∧ acmeCalls.Pairwise (ReadsBack acmeIds) :=
  drizzleObjectives_refine_iff acmeIds acmeTenancy acmeCalls acmeCalls_wellTyped (by decide)

theorem drizzleObjectives_lose_team :
    ¬ ∀ (uuid : UuidType) (tenancy : TenancyTables) (calls : List ObjectiveCall),
      (∀ call ∈ calls, call.WellTyped uuid tenancy) →
      (calls.filterMap ObjectiveCall.created).Nodup →
        answers (drizzleObjectiveService uuid) (.empty tenancy) calls =
          answers inMemoryObjectiveService {} calls := by
  intro refines
  have same := refines acmeIds acmeTenancy acmeCalls acmeCalls_wellTyped (by decide)
  obtain ⟨-, readsBack, -⟩ := (answers_eq_iff (.empty acmeIds acmeTenancy) acmeCalls_wellTyped
    (by decide) fun _ listed => nomatch listed).mp same
  obtain ⟨-, -, surfaced⟩ := (List.pairwise_cons.mp readsBack).1 _ (List.mem_singleton_self _)
    acmeInput acmePrincipal _ _ rfl rfl (by decide) (by decide)
  have scope := (surfaced.team _ rfl).1
  simp [acmeInput, Scope.name] at scope

end Donna
