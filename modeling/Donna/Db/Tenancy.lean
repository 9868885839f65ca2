import Mathlib.Tactic.MkIffOfInductiveProp
import Donna.Base.Tables
import Donna.Core.Domain
import Donna.Db.Columns

/-! The tenancy tables of the database (organizations, users, teams, projects and the memberships
that link them), with every unique key and foreign key that the migrations put on them.  No column
that a statement below changes has a foreign key action: a statement that leaves a constraint broken
is refused, and so is one that brings a text which the database cannot store. -/

namespace Donna

open Tables

structure OrganizationRow where
  id : String
  name : String
  slug : String
  externalAuthId : Option String
  deriving DecidableEq

/-- What stands in the text columns of a row. -/
def OrganizationRow.texts (row : OrganizationRow) : List String :=
  [row.name, row.slug] ++ row.externalAuthId.toList

structure UserRow where
  id : String
  organizationId : String
  email : String
  displayName : String
  externalAuthId : Option String
  deriving DecidableEq

def UserRow.texts (row : UserRow) : List String :=
  [row.email, row.displayName] ++ row.externalAuthId.toList

structure TeamRow where
  id : String
  organizationId : String
  deriving DecidableEq

structure MembershipRow where
  id : String
  organizationId : String
  userId : String
  teamId : Option String
  role : Role
  deriving DecidableEq

structure ProjectRow where
  id : String
  organizationId : String
  deriving DecidableEq

structure ProjectMembershipRow where
  id : String
  organizationId : String
  projectId : String
  userId : String
  deriving DecidableEq

structure TenancyTables where
  organizations : List OrganizationRow := []
  users : List UserRow := []
  teams : List TeamRow := []
  memberships : List MembershipRow := []
  projects : List ProjectRow := []
  projectMemberships : List ProjectMembershipRow := []

namespace TenancyTables

/-- The rows that no unique key of the schema forbids, table by table. -/
@[mk_iff]
structure Keys (tables : TenancyTables) : Prop where
  organizations_pkey : Unique (some ·.id) tables.organizations
  organizations_slug_unique : Unique (some ·.slug) tables.organizations
  organizations_external_auth_id_unique : Unique (·.externalAuthId) tables.organizations
  users_pkey : Unique (some ·.id) tables.users
  users_org_email_unique : Unique (fun row => some (row.organizationId, row.email)) tables.users
  users_external_auth_id_unique : Unique (·.externalAuthId) tables.users
  users_org_id_unique : Unique (fun row => some (row.organizationId, row.id)) tables.users
  teams_pkey : Unique (some ·.id) tables.teams
  teams_org_id_unique : Unique (fun row => some (row.organizationId, row.id)) tables.teams
  memberships_pkey : Unique (some ·.id) tables.memberships
  memberships_user_team_unique :
    Unique (fun row => row.teamId.map (row.userId, ·)) tables.memberships
  projects_pkey : Unique (some ·.id) tables.projects
  projects_org_id_unique : Unique (fun row => some (row.organizationId, row.id)) tables.projects
  project_memberships_pkey : Unique (some ·.id) tables.projectMemberships
  project_memberships_project_user_unique :
    Unique (fun row => some (row.projectId, row.userId)) tables.projectMemberships

/-- The foreign keys.  A pair with a null column refers to nothing (`MATCH SIMPLE`). -/
@[mk_iff]
structure References (tables : TenancyTables) : Prop where
  users_organization_id_fk :
    Refers (some ·.organizationId) tables.users (·.id) tables.organizations
  teams_organization_id_fk :
    Refers (some ·.organizationId) tables.teams (·.id) tables.organizations
  memberships_organization_id_fk :
    Refers (some ·.organizationId) tables.memberships (·.id) tables.organizations
  memberships_user_id_fk : Refers (some ·.userId) tables.memberships (·.id) tables.users
  memberships_team_id_fk : Refers (·.teamId) tables.memberships (·.id) tables.teams
  memberships_org_user_fk :
    Refers (fun row => some (row.organizationId, row.userId)) tables.memberships
      (fun user => (user.organizationId, user.id)) tables.users
  memberships_org_team_fk :
    Refers (fun row => row.teamId.map (row.organizationId, ·)) tables.memberships
      (fun team => (team.organizationId, team.id)) tables.teams
  projects_organization_id_fk :
    Refers (some ·.organizationId) tables.projects (·.id) tables.organizations
  project_memberships_organization_id_fk :
    Refers (some ·.organizationId) tables.projectMemberships (·.id) tables.organizations
  project_memberships_project_id_fk :
    Refers (some ·.projectId) tables.projectMemberships (·.id) tables.projects
  project_memberships_user_id_fk :
    Refers (some ·.userId) tables.projectMemberships (·.id) tables.users
  project_memberships_org_project_fk :
    Refers (fun row => some (row.organizationId, row.projectId)) tables.projectMemberships
      (fun project => (project.organizationId, project.id)) tables.projects
  project_memberships_org_user_fk :
    Refers (fun row => some (row.organizationId, row.userId)) tables.projectMemberships
      (fun user => (user.organizationId, user.id)) tables.users

/-- The text columns hold texts that the database can store. -/
@[mk_iff]
structure Texts (tables : TenancyTables) : Prop where
  organizations : ∀ row ∈ tables.organizations, ∀ text ∈ row.texts, Storable text
  users : ∀ row ∈ tables.users, ∀ text ∈ row.texts, Storable text

instance (tables : TenancyTables) : Decidable tables.Keys :=
  decidable_of_iff _ (keys_iff tables).symm

instance (tables : TenancyTables) : Decidable tables.References :=
  decidable_of_iff _ (references_iff tables).symm

instance (tables : TenancyTables) : Decidable tables.Texts :=
  decidable_of_iff _ (texts_iff tables).symm

/-! ### New rows for one table -/

section Replace

variable {tables : TenancyTables} {organizations : List OrganizationRow} {users : List UserRow}
  {memberships : List MembershipRow}

theorem Keys.withOrganizations (keys : tables.Keys)
    (pkey : Unique (some ·.id) organizations) (slug : Unique (some ·.slug) organizations)
    (externalAuthId : Unique (·.externalAuthId) organizations) :
    { tables with organizations := organizations }.Keys :=
  { keys with
    organizations_pkey := pkey
    organizations_slug_unique := slug
    organizations_external_auth_id_unique := externalAuthId }

theorem References.withOrganizations (references : tables.References)
    (kept : tables.organizations.map (·.id) ⊆ organizations.map (·.id)) :
    { tables with organizations := organizations }.References :=
  { references with
    users_organization_id_fk := references.users_organization_id_fk.mono kept
    teams_organization_id_fk := references.teams_organization_id_fk.mono kept
    memberships_organization_id_fk := references.memberships_organization_id_fk.mono kept
    projects_organization_id_fk := references.projects_organization_id_fk.mono kept
    project_memberships_organization_id_fk :=
      references.project_memberships_organization_id_fk.mono kept }

theorem Keys.withUsers (keys : tables.Keys) (pkey : Unique (some ·.id) users)
    (orgEmail : Unique (fun row => some (row.organizationId, row.email)) users)
    (externalAuthId : Unique (·.externalAuthId) users) :
    { tables with users := users }.Keys :=
  { keys with
    users_pkey := pkey
    users_org_email_unique := orgEmail
    users_external_auth_id_unique := externalAuthId
    users_org_id_unique := pkey.of_imp fun _ _ k hFirst hSecond =>
      ⟨k.2, congrArg (Option.map Prod.snd) hFirst, congrArg (Option.map Prod.snd) hSecond⟩ }

theorem References.withUsers (references : tables.References)
    (organization : Refers (some ·.organizationId) users (·.id) tables.organizations)
    (kept : tables.users.map (·.id) ⊆ users.map (·.id))
    (memberships : Refers (fun row => some (row.organizationId, row.userId)) tables.memberships
      (fun user => (user.organizationId, user.id)) users)
    (projectMemberships : Refers (fun row => some (row.organizationId, row.userId))
      tables.projectMemberships (fun user => (user.organizationId, user.id)) users) :
    { tables with users := users }.References :=
  { references with
    users_organization_id_fk := organization
    memberships_user_id_fk := references.memberships_user_id_fk.mono kept
    memberships_org_user_fk := memberships
    project_memberships_user_id_fk := references.project_memberships_user_id_fk.mono kept
    project_memberships_org_user_fk := projectMemberships }

theorem Keys.withMemberships (keys : tables.Keys) (pkey : Unique (some ·.id) memberships)
    (userTeam : Unique (fun row => row.teamId.map (row.userId, ·)) memberships) :
    { tables with memberships := memberships }.Keys :=
  { keys with
    memberships_pkey := pkey
    memberships_user_team_unique := userTeam }

/-- Rows that refer to what other rows already referred to. -/
theorem References.withMemberships (references : tables.References)
    (known : ∀ row ∈ memberships, ∃ before ∈ tables.memberships,
      before.organizationId = row.organizationId ∧ before.userId = row.userId ∧
        before.teamId = row.teamId) :
    { tables with memberships := memberships }.References := by
  have refers : ∀ {κ β} {reference : MembershipRow → Option κ} {column : β → κ} {targets},
      (∀ row before : MembershipRow, before.organizationId = row.organizationId →
        before.userId = row.userId → before.teamId = row.teamId →
        reference row = reference before) →
      Refers reference tables.memberships column targets →
      Refers reference memberships column targets := by
    intro κ β reference column targets same old
    refine refers_iff.mpr fun row listed k hKey => ?_
    obtain ⟨before, hBefore, hOrganization, hUser, hTeam⟩ := known row listed
    rw [same row before hOrganization hUser hTeam] at hKey
    exact refers_iff.mp old before hBefore k hKey
  exact { references with
    memberships_organization_id_fk := refers (fun _ _ h _ _ => by simp [h])
      references.memberships_organization_id_fk
    memberships_user_id_fk := refers (fun _ _ _ h _ => by simp [h])
      references.memberships_user_id_fk
    memberships_team_id_fk := refers (fun _ _ _ _ h => by simp [h])
      references.memberships_team_id_fk
    memberships_org_user_fk := refers (fun _ _ h h' _ => by simp [h, h'])
      references.memberships_org_user_fk
    memberships_org_team_fk := refers (fun _ _ h _ h' => by simp [h, h'])
      references.memberships_org_team_fk }

/-- A row of no team for a user of its organization. -/
theorem References.insertMembership (references : tables.References) {row : MembershipRow}
    (member : (row.organizationId, row.userId) ∈
      tables.users.map fun user => (user.organizationId, user.id))
    (noTeam : row.teamId = none) :
    { tables with memberships := tables.memberships ++ [row] }.References := by
  obtain ⟨user, listed, hPair⟩ := List.mem_map.mp member
  obtain ⟨hOrganization, hUser⟩ := Prod.ext_iff.mp hPair
  have organization :=
    refers_iff.mp references.users_organization_id_fk user listed row.organizationId
      (congrArg some hOrganization)
  exact { references with
    memberships_organization_id_fk := refers_insert.mpr
      ⟨references.memberships_organization_id_fk, by simpa using organization⟩
    memberships_user_id_fk := refers_insert.mpr
      ⟨references.memberships_user_id_fk, by simpa using ⟨user, listed, hUser⟩⟩
    memberships_team_id_fk := refers_insert.mpr
      ⟨references.memberships_team_id_fk, by simp [noTeam]⟩
    memberships_org_user_fk := refers_insert.mpr
      ⟨references.memberships_org_user_fk, by simpa using member⟩
    memberships_org_team_fk := refers_insert.mpr
      ⟨references.memberships_org_team_fk, by simp [noTeam]⟩ }

end Replace

end TenancyTables

/-- The tables in a state that the constraints permit. -/
structure TenancyDatabase extends TenancyTables where
  keys : toTenancyTables.Keys
  references : toTenancyTables.References
  texts : toTenancyTables.Texts

def TenancyDatabase.empty : TenancyDatabase where
  keys := by decide
  references := by decide
  texts := by decide

end Donna
