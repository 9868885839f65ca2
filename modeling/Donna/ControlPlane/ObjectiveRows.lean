import Donna.ControlPlane.Objectives
import Donna.Db.Columns
import Donna.Db.Tenancy

/-! The objectives table and the mappers between its rows and the domain.  The columns that no
service sets (`priority`, `due_at`, `completion_summary` and the times) are left out. -/

namespace Donna

open Js JsValue Tables

/-! ### The table -/

/-- The values of an insert, with the columns that it may leave out. -/
structure ObjectiveInsert where
  id : String
  organizationId : String
  scope : JsValue
  scopeRef : Option JsValue
  requesterId : String
  ownerId : String
  projectId : Option JsValue
  requestedOutcome : String
  definitionOfDone : String
  status : ObjectiveStatus
  riskLevel : JsValue

structure ObjectiveRow where
  id : String
  organizationId : String
  scope : Scope
  scopeRef : Option String
  requesterId : String
  ownerId : String
  projectId : Option String
  requestedOutcome : String
  definitionOfDone : String
  status : ObjectiveStatus
  riskLevel : RiskLevel
  deriving DecidableEq

/-- The foreign keys of a row: its organization, and the users and the project in that. -/
structure ObjectiveRow.References (tenancy : TenancyTables) (row : ObjectiveRow) : Prop where
  organization : row.organizationId ∈ tenancy.organizations.map (·.id)
  requester : (row.organizationId, row.requesterId) ∈
    tenancy.users.map fun user => (user.organizationId, user.id)
  owner : (row.organizationId, row.ownerId) ∈
    tenancy.users.map fun user => (user.organizationId, user.id)
  project : ∀ projectId ∈ row.projectId, (row.organizationId, projectId) ∈
    tenancy.projects.map fun project => (project.organizationId, project.id)

/-- The objectives and the events beside the tenancy tables, which no statement here changes. -/
structure ObjectiveDatabase where
  tenancy : TenancyTables
  objectives : List ObjectiveRow
  events : List EventRow
  primaryKey : Unique (some ·.id) objectives
  references : ∀ row ∈ objectives, row.References tenancy

instance (tenancy : TenancyTables) (row : ObjectiveRow) : Decidable (row.References tenancy) :=
  decidable_of_iff (row.organizationId ∈ tenancy.organizations.map (·.id) ∧
    (row.organizationId, row.requesterId) ∈
      tenancy.users.map (fun user => (user.organizationId, user.id)) ∧
    (row.organizationId, row.ownerId) ∈
      tenancy.users.map (fun user => (user.organizationId, user.id)) ∧
    ∀ projectId ∈ row.projectId, (row.organizationId, projectId) ∈
      tenancy.projects.map fun project => (project.organizationId, project.id))
    ⟨fun ⟨organization, requester, owner, project⟩ => ⟨organization, requester, owner, project⟩,
      fun ⟨organization, requester, owner, project⟩ => ⟨organization, requester, owner, project⟩⟩

/-- The row that an insert stores. -/
def readRow (uuid : UuidType) (insert : ObjectiveInsert) : Except Thrown ObjectiveRow := do
  let id ← uuidColumn uuid insert.id
  let organizationId ← uuidColumn uuid insert.organizationId
  let scope ← enumColumn Scope.all Scope.name .organization insert.scope
  let scopeRef ← nullableUuidColumn uuid insert.scopeRef
  let requesterId ← uuidColumn uuid insert.requesterId
  let ownerId ← uuidColumn uuid insert.ownerId
  let projectId ← nullableUuidColumn uuid insert.projectId
  let requestedOutcome ← textColumn insert.requestedOutcome
  let definitionOfDone ← textColumn insert.definitionOfDone
  let riskLevel ← enumColumn RiskLevel.all RiskLevel.name .low insert.riskLevel
  pure {
    id, organizationId, scope, scopeRef, requesterId, ownerId, projectId, requestedOutcome
    definitionOfDone, riskLevel
    status := insert.status }

namespace ObjectiveDatabase

def insertObjective (uuid : UuidType) (insert : ObjectiveInsert) (db : ObjectiveDatabase) :
    Except Thrown ObjectiveDatabase := do
  let row ← readRow uuid insert
  if fresh : ∀ other ∈ db.objectives, other.id ≠ row.id then
    if refers : row.References db.tenancy then
      pure { db with
        objectives := db.objectives ++ [row]
        primaryKey := unique_insert.mpr ⟨db.primaryKey, by
          rintro _ ⟨⟩ other listed same
          exact fresh other listed (Option.some.inj same)⟩
        references := by
          intro other listed
          rcases List.mem_append.mp listed with before | new
          · exact db.references other before
          · exact List.mem_singleton.mp new ▸ refers }
    else throw (databaseError "23503")
  else throw (databaseError "23505")

def insertEvents (db : ObjectiveDatabase) (rows : List EventRow) : ObjectiveDatabase :=
  { db with events := db.events ++ rows }

def selectObjective (uuid : UuidType) (id organizationId : String) (db : ObjectiveDatabase) :
    Except Thrown (Option ObjectiveRow) := do
  let id ← uuidColumn uuid id
  let organizationId ← uuidColumn uuid organizationId
  pure (db.objectives.find? fun row => row.id = id ∧ row.organizationId = organizationId)

end ObjectiveDatabase

/-! ### The mappers -/

def objectiveToRow (objective : Objective) (organizationId : String) : ObjectiveInsert where
  id := objective.id
  organizationId := organizationId
  scope := objective.scope
  requesterId := objective.requesterId
  ownerId := objective.ownerId
  requestedOutcome := objective.requestedOutcome
  definitionOfDone := objective.definitionOfDone
  status := objective.status
  riskLevel := objective.riskLevel
  projectId := objective.projectId
  -- The column is set for every scope.
  scopeRef := objective.teamId

def rowToObjective (row : ObjectiveRow) : Objective where
  id := row.id
  scope := .string row.scope.name
  requesterId := row.requesterId
  ownerId := row.ownerId
  requestedOutcome := row.requestedOutcome
  definitionOfDone := row.definitionOfDone
  status := row.status
  riskLevel := .string row.riskLevel.name
  projectId := row.projectId.map .string
  -- The team binding is surfaced only for TEAM scope.
  teamId := if row.scope = .team then row.scopeRef.map .string else none

end Donna
