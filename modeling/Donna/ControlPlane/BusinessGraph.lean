import Mathlib.Data.Multiset.Filter
import Donna.Base.Unwinding
import Donna.ControlPlane.ObjectiveRows

/-! The business graph: entities and relationships of the tenants in two tables, under the keys that
hold every relationship within its tenant, and the service over them. -/

namespace Donna

open Js Tables Machine

/-! ### The tables -/

inductive SourceConfidence
  | authoritative
  | primary
  | derived
  | inferred
  | unverified
  deriving DecidableEq

structure BusinessEntityRow where
  id : String
  organizationId : String
  entityType : String
  name : String
  sourceSystem : Option String
  sourceRef : Option String
  confidence : SourceConfidence
  validFrom : ℤ
  validUntil : Option ℤ
  createdAt : ℤ
  updatedAt : ℤ
  deriving DecidableEq

structure BusinessRelationshipRow where
  id : String
  organizationId : String
  fromEntityId : String
  toEntityId : String
  relationshipType : String
  sourceSystem : Option String
  sourceRef : Option String
  confidence : SourceConfidence
  validFrom : ℤ
  validUntil : Option ℤ
  createdAt : ℤ
  updatedAt : ℤ
  deriving DecidableEq

/-- The foreign keys of an edge: its organization, and both ends as entities of that. -/
structure BusinessRelationshipRow.References (organizations : List String)
    (entities : List BusinessEntityRow) (row : BusinessRelationshipRow) : Prop where
  organization : row.organizationId ∈ organizations
  source : (row.organizationId, row.fromEntityId) ∈
    entities.map fun entity => (entity.organizationId, entity.id)
  target : (row.organizationId, row.toEntityId) ∈
    entities.map fun entity => (entity.organizationId, entity.id)

theorem BusinessRelationshipRow.references_iff {organizations : List String}
    {entities : List BusinessEntityRow} {row : BusinessRelationshipRow} :
    row.References organizations entities ↔ row.organizationId ∈ organizations ∧
      (∃ entity ∈ entities,
        entity.organizationId = row.organizationId ∧ entity.id = row.fromEntityId) ∧
      ∃ entity ∈ entities,
        entity.organizationId = row.organizationId ∧ entity.id = row.toEntityId := by
  constructor
  · intro refers
    have source := refers.source
    have target := refers.target
    simp only [List.mem_map, Prod.mk.injEq] at source target
    exact ⟨refers.organization, source, target⟩
  · rintro ⟨organization, source, target⟩
    constructor
    · exact organization
    · simpa only [List.mem_map, Prod.mk.injEq] using source
    · simpa only [List.mem_map, Prod.mk.injEq] using target

instance BusinessRelationshipRow.decidableReferences (organizations : List String)
    (entities : List BusinessEntityRow) (row : BusinessRelationshipRow) :
    Decidable (row.References organizations entities) :=
  decidable_of_iff _ BusinessRelationshipRow.references_iff.symm

theorem BusinessRelationshipRow.References.mono {organizations : List String}
    {entities more : List BusinessEntityRow} {row : BusinessRelationshipRow}
    (refers : row.References organizations entities) (kept : entities ⊆ more) :
    row.References organizations more where
  organization := refers.organization
  source := List.map_subset _ kept refers.source
  target := List.map_subset _ kept refers.target

/-- The two tables beside the organizations, which no statement here changes. -/
structure GraphDatabase where
  organizations : List String
  entities : List BusinessEntityRow
  relationships : List BusinessRelationshipRow
  entities_pkey : Unique (some ·.id) entities
  relationships_pkey : Unique (some ·.id) relationships
  entities_organization : ∀ row ∈ entities, row.organizationId ∈ organizations
  references : ∀ row ∈ relationships, row.References organizations entities

/-- The default columns of an insert: the random id and the clock of the database. -/
structure GraphDraws where
  id : String
  now : ℤ

/-! ### The service -/

structure CreateBusinessEntityInput where
  entityType : String
  name : String
  sourceSystem : Option String := none
  sourceRef : Option String := none
  confidence : Option SourceConfidence := none

structure CreateBusinessRelationshipInput where
  fromEntityId : String
  toEntityId : String
  relationshipType : String
  sourceSystem : Option String := none
  sourceRef : Option String := none
  confidence : Option SourceConfidence := none

section Service

variable (uuid : UuidType) (draws : GraphDraws) (db : GraphDatabase)

def optionalTextColumn : Option String → Except Thrown (Option String)
  | none => pure none
  | some text => some <$> textColumn text

/-- The row that an entity is inserted as. -/
def entityRow (organizationId : String) (input : CreateBusinessEntityInput) :
    Except Thrown BusinessEntityRow := do
  let organizationId ← uuidColumn uuid organizationId
  let entityType ← textColumn input.entityType
  let name ← textColumn input.name
  let sourceSystem ← optionalTextColumn input.sourceSystem
  let sourceRef ← optionalTextColumn input.sourceRef
  pure {
    id := draws.id
    organizationId := organizationId
    entityType := entityType
    name := name
    sourceSystem := sourceSystem
    sourceRef := sourceRef
    confidence := input.confidence.getD .unverified
    validFrom := draws.now
    validUntil := none
    createdAt := draws.now
    updatedAt := draws.now }

def insertEntity (row : BusinessEntityRow) : Except Thrown GraphDatabase :=
  if fresh : ∀ other ∈ db.entities, other.id ≠ row.id then
    if refers : row.organizationId ∈ db.organizations then
      pure { db with
        entities := db.entities ++ [row]
        entities_pkey := unique_insert.mpr ⟨db.entities_pkey, by
          rintro _ ⟨⟩ other listed same
          exact fresh other listed (Option.some.inj same)⟩
        entities_organization := by
          intro other listed
          rcases List.mem_append.mp listed with before | new
          · exact db.entities_organization other before
          · exact List.mem_singleton.mp new ▸ refers
        references := fun other listed =>
          (db.references other listed).mono (List.subset_append_left _ _) }
    else throw (databaseError "23503")
  else throw (databaseError "23505")

def createEntity (organizationId : String) (input : CreateBusinessEntityInput) :
    Except Thrown (BusinessEntityRow × GraphDatabase) := do
  let row ← entityRow uuid draws organizationId input
  let db ← insertEntity db row
  pure (row, db)

def getEntity (id organizationId : String) : Except Thrown (Option BusinessEntityRow) := do
  let id ← uuidColumn uuid id
  let organizationId ← uuidColumn uuid organizationId
  pure (db.entities.find? fun row => row.id = id ∧ row.organizationId = organizationId)

/-- The row that an edge is inserted as. -/
def relationshipRow (organizationId : String) (input : CreateBusinessRelationshipInput) :
    Except Thrown BusinessRelationshipRow := do
  let organizationId ← uuidColumn uuid organizationId
  let fromEntityId ← uuidColumn uuid input.fromEntityId
  let toEntityId ← uuidColumn uuid input.toEntityId
  let relationshipType ← textColumn input.relationshipType
  let sourceSystem ← optionalTextColumn input.sourceSystem
  let sourceRef ← optionalTextColumn input.sourceRef
  pure {
    id := draws.id
    organizationId := organizationId
    fromEntityId := fromEntityId
    toEntityId := toEntityId
    relationshipType := relationshipType
    sourceSystem := sourceSystem
    sourceRef := sourceRef
    confidence := input.confidence.getD .unverified
    validFrom := draws.now
    validUntil := none
    createdAt := draws.now
    updatedAt := draws.now }

def insertRelationship (row : BusinessRelationshipRow) : Except Thrown GraphDatabase :=
  if fresh : ∀ other ∈ db.relationships, other.id ≠ row.id then
    if refers : row.References db.organizations db.entities then
      pure { db with
        relationships := db.relationships ++ [row]
        relationships_pkey := unique_insert.mpr ⟨db.relationships_pkey, by
          rintro _ ⟨⟩ other listed same
          exact fresh other listed (Option.some.inj same)⟩
        references := by
          intro other listed
          rcases List.mem_append.mp listed with before | new
          · exact db.references other before
          · exact List.mem_singleton.mp new ▸ refers }
    else throw (databaseError "23503")
  else throw (databaseError "23505")

def createRelationship (organizationId : String) (input : CreateBusinessRelationshipInput) :
    Except Thrown (BusinessRelationshipRow × GraphDatabase) := do
  let row ← relationshipRow uuid draws organizationId input
  let db ← insertRelationship db row
  pure (row, db)

/-- The edges of an entity, up to their order: the query has no `ORDER BY`. -/
def listRelationships (organizationId entityId : String) :
    Except Thrown (Multiset BusinessRelationshipRow) := do
  let organizationId ← uuidColumn uuid organizationId
  let entityId ← uuidColumn uuid entityId
  pure (db.relationships.filter fun row =>
    row.organizationId = organizationId ∧ (row.fromEntityId = entityId ∨ row.toEntityId = entityId))

end Service

/-! ### Calls -/

inductive GraphRequest
  | createEntity (input : CreateBusinessEntityInput)
  | getEntity (id : String)
  | createRelationship (input : CreateBusinessRelationshipInput)
  | listRelationships (entityId : String)

/-- A call for a tenant, with what its insert draws. -/
structure GraphCall where
  draws : GraphDraws
  organizationId : String
  request : GraphRequest

inductive GraphAnswer
  | entity (row : BusinessEntityRow)
  | found (row : Option BusinessEntityRow)
  | relationship (row : BusinessRelationshipRow)
  | listed (rows : Multiset BusinessRelationshipRow)
  deriving DecidableEq

/-- What a write answers, and the tables behind it. -/
def written {α : Type} (answer : α → GraphAnswer) (db : GraphDatabase) :
    Except Thrown (α × GraphDatabase) → Except Thrown GraphAnswer × GraphDatabase
  | .ok (row, after) => (.ok (answer row), after)
  | .error error => (.error error, db)

def graphCall (uuid : UuidType) (db : GraphDatabase) (call : GraphCall) :
    Except Thrown GraphAnswer × GraphDatabase :=
  match call.request with
  | .createEntity input =>
    written .entity db (createEntity uuid call.draws db call.organizationId input)
  | .getEntity id => (.found <$> getEntity uuid db id call.organizationId, db)
  | .createRelationship input =>
    written .relationship db (createRelationship uuid call.draws db call.organizationId input)
  | .listRelationships entityId =>
    (.listed <$> listRelationships uuid db call.organizationId entityId, db)

section Inserts

variable {uuid : UuidType} {draws : GraphDraws} {db after : GraphDatabase} {organizationId : String}

/-- What an insert of an entity needs and leaves. -/
theorem insertEntity_eq_ok {row : BusinessEntityRow} (ran : insertEntity db row = .ok after) :
    after.organizations = db.organizations ∧ after.entities = db.entities ++ [row] ∧
      after.relationships = db.relationships := by
  unfold insertEntity at ran
  split at ran
  · split at ran
    · cases ran
      exact ⟨rfl, rfl, rfl⟩
    · cases ran
  · cases ran

theorem insertRelationship_eq_ok {row : BusinessRelationshipRow}
    (ran : insertRelationship db row = .ok after) :
    after.organizations = db.organizations ∧ after.entities = db.entities ∧
      after.relationships = db.relationships ++ [row] := by
  unfold insertRelationship at ran
  split at ran
  · split at ran
    · cases ran
      exact ⟨rfl, rfl, rfl⟩
    · cases ran
  · cases ran

theorem insertRelationship_ok_iff {row : BusinessRelationshipRow}
    (fresh : ∀ other ∈ db.relationships, other.id ≠ row.id) :
    (∃ after, insertRelationship db row = .ok after) ↔
      row.References db.organizations db.entities := by
  rw [insertRelationship, dif_pos fresh]
  split <;> simp [*]

theorem entityRow_eq_ok {input : CreateBusinessEntityInput} {row : BusinessEntityRow}
    (ran : entityRow uuid draws organizationId input = .ok row) :
    row.id = draws.id ∧ uuid.read organizationId = some row.organizationId := by
  simp only [entityRow, bind_eq_ok] at ran
  obtain ⟨organization, hOrganization, entityType, -, name, -, sourceSystem, -, sourceRef, -,
    result⟩ := ran
  cases result
  exact ⟨rfl, uuidColumn_eq_ok.mp hOrganization⟩

theorem relationshipRow_eq_ok {input : CreateBusinessRelationshipInput}
    {row : BusinessRelationshipRow}
    (ran : relationshipRow uuid draws organizationId input = .ok row) :
    row.id = draws.id ∧ uuid.read organizationId = some row.organizationId := by
  simp only [relationshipRow, bind_eq_ok] at ran
  obtain ⟨organization, hOrganization, source, -, target, -, relationshipType, -, sourceSystem, -,
    sourceRef, -, result⟩ := ran
  cases result
  exact ⟨rfl, uuidColumn_eq_ok.mp hOrganization⟩

end Inserts

/-! ### One call -/

/-- The entity that a call added. -/
def GraphAnswer.addedEntity : GraphAnswer → Option BusinessEntityRow
  | .entity row => some row
  | _ => none

def GraphAnswer.addedRelationship : GraphAnswer → Option BusinessRelationshipRow
  | .relationship row => some row
  | _ => none

/-- The rows that an answer says were added. -/
def entityOf (answer : Except Thrown GraphAnswer) : Option BusinessEntityRow :=
  answer.toOption.bind (·.addedEntity)

def relationshipOf (answer : Except Thrown GraphAnswer) : Option BusinessRelationshipRow :=
  answer.toOption.bind (·.addedRelationship)

section Calls

variable (uuid : UuidType) (db : GraphDatabase) (call : GraphCall)

theorem createEntity_eq_ok {uuid : UuidType} {draws : GraphDraws} {db after : GraphDatabase}
    {organizationId : String} {input : CreateBusinessEntityInput} {row : BusinessEntityRow}
    (ran : createEntity uuid draws db organizationId input = .ok (row, after)) :
    entityRow uuid draws organizationId input = .ok row ∧ insertEntity db row = .ok after := by
  simp only [createEntity, bind_eq_ok] at ran
  obtain ⟨made, hMade, stored, hStored, result⟩ := ran
  cases result
  exact ⟨hMade, hStored⟩

theorem createRelationship_eq_ok {uuid : UuidType} {draws : GraphDraws} {db after : GraphDatabase}
    {organizationId : String} {input : CreateBusinessRelationshipInput}
    {row : BusinessRelationshipRow}
    (ran : createRelationship uuid draws db organizationId input = .ok (row, after)) :
    relationshipRow uuid draws organizationId input = .ok row ∧
      insertRelationship db row = .ok after := by
  simp only [createRelationship, bind_eq_ok] at ran
  obtain ⟨made, hMade, stored, hStored, result⟩ := ran
  cases result
  exact ⟨hMade, hStored⟩

/-- A call adds nothing, or one row of its organization, which it answers with. -/
theorem graphCall_cases :
    (entityOf (graphCall uuid db call).1 = none ∧ relationshipOf (graphCall uuid db call).1 = none ∧
      (graphCall uuid db call).2 = db) ∨
    (∃ row, entityOf (graphCall uuid db call).1 = some row ∧
      relationshipOf (graphCall uuid db call).1 = none ∧
      uuid.read call.organizationId = some row.organizationId ∧
      insertEntity db row = .ok (graphCall uuid db call).2) ∨
    ∃ row, entityOf (graphCall uuid db call).1 = none ∧
      relationshipOf (graphCall uuid db call).1 = some row ∧
      uuid.read call.organizationId = some row.organizationId ∧
      insertRelationship db row = .ok (graphCall uuid db call).2 := by
  obtain ⟨draws, organizationId, request⟩ := call
  cases request with
  | createEntity input =>
    simp only [graphCall]
    cases ran : createEntity uuid draws db organizationId input with
    | error error => exact .inl ⟨rfl, rfl, rfl⟩
    | ok result =>
      obtain ⟨shaped, inserted⟩ := createEntity_eq_ok ran
      exact .inr (.inl ⟨result.1, rfl, rfl, (entityRow_eq_ok shaped).2, inserted⟩)
  | getEntity id =>
    simp only [graphCall]
    cases getEntity uuid db id organizationId <;> exact .inl ⟨rfl, rfl, trivial⟩
  | createRelationship input =>
    simp only [graphCall]
    cases ran : createRelationship uuid draws db organizationId input with
    | error error => exact .inl ⟨rfl, rfl, rfl⟩
    | ok result =>
      obtain ⟨shaped, inserted⟩ := createRelationship_eq_ok ran
      exact .inr (.inr ⟨result.1, rfl, rfl, (relationshipRow_eq_ok shaped).2, inserted⟩)
  | listRelationships entityId =>
    simp only [graphCall]
    cases listRelationships uuid db organizationId entityId <;> exact .inl ⟨rfl, rfl, trivial⟩

/-- A call adds what it answers, and changes nothing else. -/
theorem graphCall_tables :
    (graphCall uuid db call).2.organizations = db.organizations ∧
    (graphCall uuid db call).2.entities =
      db.entities ++ (entityOf (graphCall uuid db call).1).toList ∧
    (graphCall uuid db call).2.relationships =
      db.relationships ++ (relationshipOf (graphCall uuid db call).1).toList := by
  rcases @graphCall_cases uuid db call with
    ⟨entity, relationship, same⟩ | ⟨row, entity, relationship, -, inserted⟩ |
      ⟨row, entity, relationship, -, inserted⟩ <;> rw [entity, relationship]
  · rw [same]
    exact ⟨rfl, (List.append_nil _).symm, (List.append_nil _).symm⟩
  · obtain ⟨organizations, entities, relationships⟩ := insertEntity_eq_ok inserted
    exact ⟨organizations, entities, relationships.trans (List.append_nil _).symm⟩
  · obtain ⟨organizations, entities, relationships⟩ := insertRelationship_eq_ok inserted
    exact ⟨organizations, entities.trans (List.append_nil _).symm, relationships⟩

/-- What a call adds is under its organization. -/
theorem graphCall_organization :
    (∀ row ∈ entityOf (graphCall uuid db call).1,
      uuid.read call.organizationId = some row.organizationId) ∧
    ∀ row ∈ relationshipOf (graphCall uuid db call).1,
      uuid.read call.organizationId = some row.organizationId := by
  rcases @graphCall_cases uuid db call with
    ⟨entity, relationship, -⟩ | ⟨row, entity, relationship, own, -⟩ |
      ⟨row, entity, relationship, own, -⟩ <;> rw [entity, relationship]
  · simp
  · simpa using own
  · simpa using own

end Calls

/-! ### What decides an answer -/

/-- The random id of an insert is not the id of a row of its table. -/
def GraphCall.Fresh (db : GraphDatabase) (call : GraphCall) : Prop :=
  match call.request with
  | .createEntity _ => ∀ row ∈ db.entities, row.id ≠ call.draws.id
  | .createRelationship _ => ∀ row ∈ db.relationships, row.id ≠ call.draws.id
  | _ => True

instance (db : GraphDatabase) : DecidablePred (GraphCall.Fresh db)
  | ⟨_, _, .createEntity _⟩ => inferInstanceAs (Decidable (∀ row ∈ db.entities, _))
  | ⟨_, _, .getEntity _⟩ => inferInstanceAs (Decidable True)
  | ⟨_, _, .createRelationship _⟩ => inferInstanceAs (Decidable (∀ row ∈ db.relationships, _))
  | ⟨_, _, .listRelationships _⟩ => inferInstanceAs (Decidable True)

section Answers

variable {uuid : UuidType} {draws : GraphDraws} {db : GraphDatabase} {organizationId : String}

theorem createEntity_answer {input : CreateBusinessEntityInput}
    (fresh : ∀ row ∈ db.entities, row.id ≠ draws.id) :
    (written GraphAnswer.entity db (createEntity uuid draws db organizationId input)).1 = (do
      let row ← entityRow uuid draws organizationId input
      if row.organizationId ∈ db.organizations then pure (.entity row)
      else throw (databaseError "23503")) := by
  unfold createEntity
  cases made : entityRow uuid draws organizationId input with
  | error error => rfl
  | ok row =>
    have unclaimed : ∀ other ∈ db.entities, other.id ≠ row.id := by
      rw [(entityRow_eq_ok made).1]
      exact fresh
    simp only [ok_bind, insertEntity, dif_pos unclaimed]
    split <;> rfl

theorem createRelationship_answer {input : CreateBusinessRelationshipInput}
    (fresh : ∀ row ∈ db.relationships, row.id ≠ draws.id) :
    (written GraphAnswer.relationship db
        (createRelationship uuid draws db organizationId input)).1 = (do
      let row ← relationshipRow uuid draws organizationId input
      if row.References db.organizations db.entities then pure (.relationship row)
      else throw (databaseError "23503")) := by
  unfold createRelationship
  cases made : relationshipRow uuid draws organizationId input with
  | error error => rfl
  | ok row =>
    have unclaimed : ∀ other ∈ db.relationships, other.id ≠ row.id := by
      rw [(relationshipRow_eq_ok made).1]
      exact fresh
    simp only [ok_bind, insertRelationship, dif_pos unclaimed]
    split <;> rfl

end Answers

/-! ### Tenants -/

/-- The first graph has every row of the second, and for the organization no other. -/
structure SameTenant (organizationId : String) (db other : GraphDatabase) : Prop where
  organizations : db.organizations = other.organizations
  entities : db.entities.filter (·.organizationId = organizationId) =
    other.entities.filter (·.organizationId = organizationId)
  relationships : db.relationships.filter (·.organizationId = organizationId) =
    other.relationships.filter (·.organizationId = organizationId)
  more_entities : other.entities ⊆ db.entities
  more_relationships : other.relationships ⊆ db.relationships

section Tenants

variable {uuid : UuidType} {db other : GraphDatabase} {call : GraphCall} {organizationId : String}

theorem SameTenant.refl (db : GraphDatabase) : SameTenant organizationId db db :=
  ⟨rfl, rfl, rfl, List.Subset.refl _, List.Subset.refl _⟩

theorem SameTenant.fresh (same : SameTenant organizationId db other) (fresh : call.Fresh db) :
    call.Fresh other := by
  obtain ⟨draws, organizationId, request⟩ := call
  cases request with
  | createEntity input => exact fun row listed => fresh row (same.more_entities listed)
  | getEntity id => trivial
  | createRelationship input => exact fun row listed => fresh row (same.more_relationships listed)
  | listRelationships entityId => trivial

/-- The entities that an edge of the tenant can name. -/
theorem SameTenant.named (same : SameTenant organizationId db other) (id : String) :
    (organizationId, id) ∈ db.entities.map (fun entity => (entity.organizationId, entity.id)) ↔
      (organizationId, id) ∈ other.entities.map fun entity =>
        (entity.organizationId, entity.id) := by
  have within : ∀ rows : List BusinessEntityRow,
      (organizationId, id) ∈ rows.map (fun entity => (entity.organizationId, entity.id)) ↔
        ∃ entity ∈ rows.filter (·.organizationId = organizationId), entity.id = id := by
    intro rows
    simp [and_assoc]
  rw [within, within, same.entities]

theorem SameTenant.references (same : SameTenant organizationId db other)
    {row : BusinessRelationshipRow} (own : row.organizationId = organizationId) :
    row.References db.organizations db.entities ↔
      row.References other.organizations other.entities := by
  subst own
  constructor
  · rintro ⟨organization, source, target⟩
    exact ⟨same.organizations ▸ organization, (same.named _).mp source, (same.named _).mp target⟩
  · rintro ⟨organization, source, target⟩
    exact ⟨same.organizations ▸ organization, (same.named _).mpr source, (same.named _).mpr target⟩

/-- A query that asks for the organization reads the tenant's rows only. -/
theorem find?_own {rows : List BusinessEntityRow} {id : String} :
    rows.find? (fun row => row.id = id ∧ row.organizationId = organizationId) =
      (rows.filter (·.organizationId = organizationId)).find? (·.id = id) := by
  rw [List.find?_filter]
  congr 1
  funext row
  simp [and_comm]

theorem filter_own {rows : List BusinessRelationshipRow} {touches : BusinessRelationshipRow → Prop}
    [DecidablePred touches] :
    rows.filter (fun row => row.organizationId = organizationId ∧ touches row) =
      (rows.filter (·.organizationId = organizationId)).filter touches := by
  rw [List.filter_filter]
  congr 1
  funext row
  simp [and_comm]

theorem SameTenant.answer (same : SameTenant organizationId db other) (fresh : call.Fresh db)
    (own : uuid.read call.organizationId = some organizationId) :
    (graphCall uuid db call).1 = (graphCall uuid other call).1 := by
  have freshOther := same.fresh fresh
  obtain ⟨draws, organization, request⟩ := call
  cases request with
  | createEntity input =>
    simp only [graphCall]
    rw [createEntity_answer fresh, createEntity_answer freshOther, same.organizations]
  | getEntity id =>
    simp only [graphCall, getEntity, uuidColumn_eq_ok.mpr own, ok_bind, find?_own,
      same.entities]
  | createRelationship input =>
    simp only [graphCall]
    rw [createRelationship_answer fresh, createRelationship_answer freshOther]
    cases made : relationshipRow uuid draws organization input with
    | error error => rfl
    | ok row =>
      have owned : row.organizationId = organizationId :=
        Option.some.inj ((relationshipRow_eq_ok made).2.symm.trans own)
      simp only [ok_bind, same.references owned]
  | listRelationships entityId =>
    simp only [graphCall, listRelationships, uuidColumn_eq_ok.mpr own, ok_bind, filter_own,
      same.relationships]

theorem SameTenant.own_call (same : SameTenant organizationId db other) (fresh : call.Fresh db)
    (own : uuid.read call.organizationId = some organizationId) :
    SameTenant organizationId (graphCall uuid db call).2 (graphCall uuid other call).2 := by
  obtain ⟨organizations, entities, relationships⟩ := graphCall_tables uuid db call
  obtain ⟨organizations', entities', relationships'⟩ := graphCall_tables uuid other call
  rw [← same.answer fresh own] at entities' relationships'
  refine ⟨?_, ?_, ?_, ?_, ?_⟩
  · rw [organizations, organizations', same.organizations]
  · rw [entities, entities', List.filter_append, List.filter_append, same.entities]
  · rw [relationships, relationships', List.filter_append, List.filter_append, same.relationships]
  · rw [entities, entities']
    exact List.append_subset.mpr ⟨List.subset_append_of_subset_left _ same.more_entities,
      List.subset_append_right _ _⟩
  · rw [relationships, relationships']
    exact List.append_subset.mpr ⟨List.subset_append_of_subset_left _ same.more_relationships,
      List.subset_append_right _ _⟩

theorem SameTenant.foreign_call (same : SameTenant organizationId db other)
    (foreign : uuid.read call.organizationId ≠ some organizationId) :
    SameTenant organizationId (graphCall uuid db call).2 other := by
  obtain ⟨organizations, entities, relationships⟩ := graphCall_tables uuid db call
  obtain ⟨ofEntity, ofRelationship⟩ := graphCall_organization uuid db call
  refine ⟨organizations.trans same.organizations, ?_, ?_, ?_, ?_⟩
  · have none_own : (entityOf (graphCall uuid db call).1).toList.filter
        (·.organizationId = organizationId) = [] := by
      rw [List.filter_eq_nil_iff]
      intro row listed
      have kept := ofEntity row (Option.mem_toList.mp listed)
      rw [kept] at foreign
      simpa using fun eq => foreign (congrArg some eq)
    rw [entities, List.filter_append, none_own, List.append_nil, same.entities]
  · have none_own : (relationshipOf (graphCall uuid db call).1).toList.filter
        (·.organizationId = organizationId) = [] := by
      rw [List.filter_eq_nil_iff]
      intro row listed
      have kept := ofRelationship row (Option.mem_toList.mp listed)
      rw [kept] at foreign
      simpa using fun eq => foreign (congrArg some eq)
    rw [relationships, List.filter_append, none_own, List.append_nil, same.relationships]
  · rw [entities]
    exact fun row listed => List.mem_append_left _ (same.more_entities listed)
  · rw [relationships]
    exact fun row listed => List.mem_append_left _ (same.more_relationships listed)

end Tenants

/-- The calls of a tenant, whichever text of the id they have. -/
def GraphCall.isOf (uuid : UuidType) (organizationId : String) (call : GraphCall) : Bool :=
  uuid.read call.organizationId = some organizationId

/-- No tenant can tell from any of its answers, up to the order of a listing, what the calls of the
others were, or whether there were any. -/
theorem graph_tenants_apart (uuid : UuidType) (organizationId : String) (start : GraphDatabase)
    (calls : List GraphCall)
    (fresh : ∀ visit ∈ visits (graphCall uuid) start calls, visit.input.Fresh visit.before) :
    ((visits (graphCall uuid) start calls).filter (·.input.isOf uuid organizationId)).map
        (·.output) =
      (visits (graphCall uuid) start (calls.filter (·.isOf uuid organizationId))).map (·.output) ∧
    SameTenant organizationId (final (graphCall uuid) start calls)
      (final (graphCall uuid) start (calls.filter (·.isOf uuid organizationId))) := by
  refine unwinding (fun state other call _ foreign alike => ?_)
    (fun state other call admitted own alike => ?_) (SameTenant.refl start) calls fresh
  · exact alike.foreign_call (of_decide_eq_false foreign)
  · exact ⟨alike.answer admitted (of_decide_eq_true own),
      alike.own_call admitted (of_decide_eq_true own)⟩

/-! ### Histories -/

def GraphDatabase.empty (organizations : List String) : GraphDatabase where
  organizations := organizations
  entities := []
  relationships := []
  entities_pkey := List.nodup_nil
  relationships_pkey := List.nodup_nil
  entities_organization := by simp
  references := by simp

/-- Two calls of Acme with one of Globex between them, which names the entity of Acme. -/
def graphCalls : List GraphCall := [
  ⟨⟨"1", 0⟩, "acme", .createEntity { entityType := "client", name := "Ada" }⟩,
  ⟨⟨"2", 1⟩, "globex", .createRelationship
    { fromEntityId := "1", toEntityId := "1", relationshipType := "owns" }⟩,
  ⟨⟨"3", 2⟩, "acme", .listRelationships "1"⟩]

theorem graph_tenants_apart_acme :
    let start := GraphDatabase.empty ["acme", "globex"]
    ((visits (graphCall plainIds) start graphCalls).filter (·.input.isOf plainIds "acme")).map
        (·.output) =
      (visits (graphCall plainIds) start (graphCalls.filter (·.isOf plainIds "acme"))).map
        (·.output) ∧
    SameTenant "acme" (final (graphCall plainIds) start graphCalls)
      (final (graphCall plainIds) start (graphCalls.filter (·.isOf plainIds "acme"))) :=
  graph_tenants_apart plainIds "acme" (.empty ["acme", "globex"]) graphCalls
    (by decide)

section Histories

variable {uuid : UuidType} {start : GraphDatabase}

/-- The tables are the rows that the calls answered, in their order. -/
theorem final_tables (uuid : UuidType) (start : GraphDatabase) (calls : List GraphCall) :
    (final (graphCall uuid) start calls).organizations = start.organizations ∧
    (final (graphCall uuid) start calls).entities = start.entities ++
      (visits (graphCall uuid) start calls).filterMap (entityOf ·.output) ∧
    (final (graphCall uuid) start calls).relationships = start.relationships ++
      (visits (graphCall uuid) start calls).filterMap (relationshipOf ·.output) := by
  induction calls generalizing start with
  | nil => exact ⟨rfl, (List.append_nil _).symm, (List.append_nil _).symm⟩
  | cons call rest ih =>
    obtain ⟨organizations, entities, relationships⟩ := graphCall_tables uuid start call
    obtain ⟨later, laterEntities, laterRelationships⟩ := @ih (graphCall uuid start call).2
    simp only [final, visits, visit, List.filterMap_cons]
    rw [later, organizations, laterEntities, entities, laterRelationships, relationships]
    refine ⟨rfl, ?_, ?_⟩
    · cases entityOf (graphCall uuid start call).1 <;> simp
    · cases relationshipOf (graphCall uuid start call).1 <;> simp

/-- An entity with this id was answered to a call of the organization. -/
def CreatedFor (uuid : UuidType) (organizationId id : String)
    (history : List (Visit GraphDatabase GraphCall (Except Thrown GraphAnswer))) : Prop :=
  ∃ made ∈ history, uuid.read made.input.organizationId = some organizationId ∧
    ∃ row, made.output = .ok (.entity row) ∧ row.id = id

theorem entityOf_eq_some {answer : Except Thrown GraphAnswer} {row : BusinessEntityRow} :
    entityOf answer = some row ↔ answer = .ok (.entity row) := by
  cases answer with
  | error error => simp [entityOf, Except.toOption]
  | ok answer => cases answer <;> simp [entityOf, Except.toOption, GraphAnswer.addedEntity]

theorem relationshipOf_eq_some {answer : Except Thrown GraphAnswer}
    {row : BusinessRelationshipRow} :
    relationshipOf answer = some row ↔ answer = .ok (.relationship row) := by
  cases answer with
  | error error => simp [relationshipOf, Except.toOption]
  | ok answer =>
    cases answer <;> simp [relationshipOf, Except.toOption, GraphAnswer.addedRelationship]

theorem CreatedFor.of_entityOf {organizationId id : String}
    {calls : List GraphCall} : (organizationId, id) ∈
      ((visits (graphCall uuid) start calls).filterMap (entityOf ·.output)).map
        (fun entity => (entity.organizationId, entity.id)) ↔
      CreatedFor uuid organizationId id (visits (graphCall uuid) start calls) := by
  have owned : ∀ made ∈ visits (graphCall uuid) start calls, ∀ row,
      entityOf made.output = some row →
        uuid.read made.input.organizationId = some row.organizationId := by
    intro made listed row added
    obtain ⟨earlier, eq⟩ := exists_of_mem_visits listed
    rw [eq] at added
    exact (graphCall_organization uuid _ made.input).1 row added
  simp only [List.mem_map, List.mem_filterMap]
  constructor
  · rintro ⟨row, ⟨made, listed, added⟩, keys⟩
    obtain ⟨rfl, rfl⟩ := Prod.mk.inj keys
    exact ⟨made, listed, owned made listed row added, row, entityOf_eq_some.mp added, rfl⟩
  · rintro ⟨made, listed, own, row, answer, rfl⟩
    have added := entityOf_eq_some.mpr answer
    have same : row.organizationId = organizationId :=
      Option.some.inj ((owned made listed row added).symm.trans own)
    exact ⟨row, ⟨made, listed, added⟩, by rw [same]⟩

/-- The texts that the edge is stored with have no character of code zero. -/
def CreateBusinessRelationshipInput.Storable (input : CreateBusinessRelationshipInput) : Prop :=
  Donna.Storable input.relationshipType ∧ (∀ text ∈ input.sourceSystem, Donna.Storable text) ∧
    ∀ text ∈ input.sourceRef, Donna.Storable text

theorem textColumn_ok_iff {text : String} :
    (∃ stored, textColumn text = .ok stored) ↔ Donna.Storable text := by
  unfold textColumn
  split <;> simp [*]

theorem optionalTextColumn_ok_iff {text : Option String} :
    (∃ stored, optionalTextColumn text = .ok stored) ↔ ∀ given ∈ text, Donna.Storable given := by
  cases text with
  | none => simp [optionalTextColumn]
  | some text =>
    simp only [Option.mem_def, Option.some.injEq, forall_eq', ← textColumn_ok_iff]
    simp only [optionalTextColumn]
    cases textColumn text <;> simp

theorem relationshipRow_ok_iff {draws : GraphDraws} {organizationId tenant source target : String}
    {input : CreateBusinessRelationshipInput} :
    (∃ row, relationshipRow uuid draws organizationId input = .ok row ∧
        row.organizationId = tenant ∧ row.fromEntityId = source ∧ row.toEntityId = target) ↔
      uuid.read organizationId = some tenant ∧ uuid.read input.fromEntityId = some source ∧
        uuid.read input.toEntityId = some target ∧ input.Storable := by
  rw [CreateBusinessRelationshipInput.Storable, ← optionalTextColumn_ok_iff,
    ← optionalTextColumn_ok_iff, ← textColumn_ok_iff]
  simp only [← uuidColumn_eq_ok, relationshipRow, bind_eq_ok]
  constructor
  · rintro ⟨row, ⟨_, tenant, _, source, _, target, type, hType, system, hSystem, ref, hRef, result⟩,
      rfl, rfl, rfl⟩
    cases result
    exact ⟨tenant, source, target, ⟨type, hType⟩, ⟨system, hSystem⟩, ref, hRef⟩
  · rintro ⟨tenant, source, target, ⟨type, hType⟩, ⟨system, hSystem⟩, ref, hRef⟩
    exact ⟨_, ⟨_, tenant, _, source, _, target, type, hType, system, hSystem, ref, hRef, rfl⟩,
      rfl, rfl, rfl⟩

theorem createRelationship_ok_iff {draws : GraphDraws} {db : GraphDatabase}
    {organizationId : String} {input : CreateBusinessRelationshipInput} :
    (∃ row after, createRelationship uuid draws db organizationId input = .ok (row, after)) ↔
      (∀ row ∈ db.relationships, row.id ≠ draws.id) ∧
      ∃ row, relationshipRow uuid draws organizationId input = .ok row ∧
        row.References db.organizations db.entities := by
  constructor
  · rintro ⟨row, after, ran⟩
    obtain ⟨made, stored⟩ := createRelationship_eq_ok ran
    have unclaimed : ∀ other ∈ db.relationships, other.id ≠ row.id := by
      by_contra claimed
      simp [insertRelationship, dif_neg claimed] at stored
    refine ⟨(relationshipRow_eq_ok made).1 ▸ unclaimed, row, made, ?_⟩
    exact (insertRelationship_ok_iff unclaimed).mp ⟨after, stored⟩
  · rintro ⟨fresh, row, made, refers⟩
    rw [← (relationshipRow_eq_ok made).1] at fresh
    obtain ⟨after, stored⟩ := (insertRelationship_ok_iff fresh).mpr refers
    exact ⟨row, after, by simp [createRelationship, made, stored]⟩

/-- Over every history from empty tables: an edge is taken exactly when both its ends were answered
to calls of its own organization, and a listing has exactly the edges that were, in any order. -/
theorem graph_history (uuid : UuidType) (organizations : List String) (calls : List GraphCall) :
    let history := visits (graphCall uuid) (.empty organizations) calls
    let db := final (graphCall uuid) (.empty organizations) calls
    (∀ draws organizationId input,
      (∃ row after, createRelationship uuid draws db organizationId input = .ok (row, after)) ↔
        (∀ made ∈ history, ∀ row, made.output = .ok (.relationship row) → row.id ≠ draws.id) ∧
        input.Storable ∧
        ∃ tenant ∈ organizations, ∃ source target,
          uuid.read organizationId = some tenant ∧
          uuid.read input.fromEntityId = some source ∧ CreatedFor uuid tenant source history ∧
          uuid.read input.toEntityId = some target ∧ CreatedFor uuid tenant target history) ∧
    ∀ organizationId entityId, listRelationships uuid db organizationId entityId = (do
      let tenant ← uuidColumn uuid organizationId
      let entity ← uuidColumn uuid entityId
      let answered := (history.filterMap (relationshipOf ·.output) : Multiset _)
      pure (answered.filter fun row =>
        row.organizationId = tenant ∧ (row.fromEntityId = entity ∨ row.toEntityId = entity))) := by
  intro history db
  obtain ⟨hOrganizations, hEntities, hRelationships⟩ :
    db.organizations = organizations ∧ db.entities = history.filterMap (entityOf ·.output) ∧
      db.relationships = history.filterMap (relationshipOf ·.output) :=
    final_tables uuid (.empty organizations) calls
  have edges : ∀ row, row ∈ db.relationships ↔
      ∃ made ∈ history, made.output = .ok (.relationship row) := by
    intro row
    simp only [hRelationships, List.mem_filterMap, relationshipOf_eq_some]
  have ends : ∀ tenant id, (tenant, id) ∈
      db.entities.map (fun entity => (entity.organizationId, entity.id)) ↔
        CreatedFor uuid tenant id history := by
    intro tenant id
    rw [hEntities]
    exact CreatedFor.of_entityOf
  refine ⟨fun draws organizationId input => ?_, fun organizationId entityId => ?_⟩
  · rw [createRelationship_ok_iff]
    refine and_congr ⟨fun fresh made listed row answer => fresh row ?_,
      fun fresh row listed => ?_⟩ ⟨?_, ?_⟩
    · exact (edges row).mpr ⟨made, listed, answer⟩
    · obtain ⟨made, hMade, answer⟩ := (edges row).mp listed
      exact fresh made hMade row answer
    · rintro ⟨row, made, refers⟩
      obtain ⟨hTenant, hSource, hTarget, storable⟩ :=
        relationshipRow_ok_iff.mp ⟨row, made, rfl, rfl, rfl⟩
      exact ⟨storable, row.organizationId, hOrganizations ▸ refers.organization, _, _, hTenant,
        hSource, (ends _ _).mp refers.source, hTarget, (ends _ _).mp refers.target⟩
    · rintro ⟨storable, tenant, registered, source, target, hTenant, hSource, sourceMade, hTarget,
        targetMade⟩
      obtain ⟨row, made, rfl, rfl, rfl⟩ :=
        relationshipRow_ok_iff.mpr ⟨hTenant, hSource, hTarget, storable⟩
      exact ⟨row, made, hOrganizations ▸ registered, (ends _ _).mpr sourceMade,
        (ends _ _).mpr targetMade⟩
  · simp only [listRelationships, hRelationships, Multiset.filter_coe]

end Histories

end Donna
