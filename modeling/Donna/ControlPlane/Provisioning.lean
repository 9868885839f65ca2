import Donna.ControlPlane.ClerkEvents
import Donna.Db.Tenancy
import Donna.Policy.Types

/-! Provisioning: how verified events of the identity provider change the tenancy tables, and how
the resolver reads a principal from them. -/

namespace Donna

open Js Tables

/-- What one event draws: the random ids that the service gives an organization and a user, and the
default id of a membership. -/
structure ProvisioningDraws where
  orgId : String
  userId : String
  membershipId : String

inductive ProvisioningError
  | payload (error : ClerkPayloadError)
  /-- the database refuses a statement, for a constraint or for a text -/
  | statementRefused
  deriving DecidableEq

abbrev Handling (α : Type) := Except ProvisioningError α

/-- A statement leaves new tables behind, unless they break a constraint. -/
def statement (tables : TenancyTables) : Handling TenancyDatabase :=
  if valid : tables.Keys ∧ tables.References ∧ tables.Texts then
    pure ⟨tables, valid.1, valid.2.1, valid.2.2⟩
  else throw .statementRefused

/-- The texts that the statements of a function have as parameters, in conditions or for columns:
the database refuses a statement for the first that it cannot read. -/
def textParameters (texts : List String) : Handling Unit :=
  if ∀ text ∈ texts, Storable text then pure () else throw .statementRefused

section Service

variable (draws : ProvisioningDraws) (db : TenancyDatabase)

def orgIdByExternal (externalId : String) : Option String :=
  (db.organizations.find? (·.externalAuthId = some externalId)).map (·.id)

def userIdByExternal (externalId : String) : Option String :=
  (db.users.find? (·.externalAuthId = some externalId)).map (·.id)

def upsertOrg (externalId name slug : String) : Handling (String × TenancyDatabase) := do
  textParameters [externalId, name, slug]
  match orgIdByExternal db externalId with
  | some existing => do
    let db ← statement { db.toTenancyTables with
      organizations := updateWhere (·.id = existing)
        (fun row => { row with name := name, slug := slug }) db.organizations }
    pure (existing, db)
  | none => do
    let db ← statement { db.toTenancyTables with
      organizations := db.organizations ++ [{
        id := draws.orgId
        name := name
        slug := slug
        externalAuthId := some externalId }] }
    pure (draws.orgId, db)

def upsertUser (externalId organizationId email displayName : String) :
    Handling (String × TenancyDatabase) := do
  textParameters [externalId, email, displayName]
  match userIdByExternal db externalId with
  | some existing => do
    let db ← statement { db.toTenancyTables with
      users := updateWhere (·.id = existing) (fun row => { row with
        organizationId := organizationId
        email := email
        displayName := displayName }) db.users }
    pure (existing, db)
  | none => do
    let db ← statement { db.toTenancyTables with
      users := db.users ++ [{
        id := draws.userId
        organizationId := organizationId
        email := email
        displayName := displayName
        externalAuthId := some externalId }] }
    pure (draws.userId, db)

/-- The organization-level membership of a user. -/
def isOrgLevel (organizationId userId : String) (row : MembershipRow) : Bool :=
  row.userId = userId ∧ row.organizationId = organizationId ∧ row.teamId = none

def upsertMembership (organizationId userId : String) (role : Role) :
    Handling TenancyDatabase :=
  match db.memberships.find? (isOrgLevel organizationId userId) with
  | some found =>
    statement { db.toTenancyTables with
      memberships := updateWhere (·.id = found.id) (fun row => { row with role := role })
        db.memberships }
  | none =>
    statement { db.toTenancyTables with
      memberships := db.memberships ++ [{
        id := draws.membershipId
        organizationId := organizationId
        userId := userId
        teamId := none
        role := role }] }

/-- Upsert org, user and org-level membership, so that the member is authorizable. -/
def syncMembership (m : MembershipSync) : Handling TenancyDatabase := do
  let (orgId, db) ← upsertOrg draws db m.clerkOrgId m.orgName m.orgSlug
  let (userId, db) ← upsertUser draws db m.clerkUserId orgId m.email m.displayName
  upsertMembership draws db orgId userId m.role

def updateUser (u : UserUpdate) : Handling TenancyDatabase := do
  textParameters [u.clerkUserId, u.email, u.displayName]
  statement { db.toTenancyTables with
    users := updateWhere (·.externalAuthId = some u.clerkUserId)
      (fun row => { row with email := u.email, displayName := u.displayName }) db.users }

def upsertOrganization (o : OrgUpdate) : Handling TenancyDatabase := do
  let (_, db) ← upsertOrg draws db o.clerkOrgId o.name o.slug
  pure db

def removeMembership (clerkOrgId clerkUserId : String) : Handling TenancyDatabase := do
  textParameters [clerkOrgId, clerkUserId]
  match orgIdByExternal db clerkOrgId, userIdByExternal db clerkUserId with
  | some orgId, some userId =>
    statement { db.toTenancyTables with
      memberships := db.memberships.filter fun row => !isOrgLevel orgId userId row }
  | _, _ => pure db

/-- Revoke access without deleting history: clear the external id. -/
def revokeUser (clerkUserId : String) : Handling TenancyDatabase := do
  textParameters [clerkUserId]
  statement { db.toTenancyTables with
    users := updateWhere (·.externalAuthId = some clerkUserId)
      (fun row => { row with externalAuthId := none }) db.users }

/-- A parsed payload, or the error that the handler throws for it. -/
def parsed {α : Type} (payload : ClerkParsed α) : Handling α :=
  payload.mapError .payload

/-- What one event does, inside its transaction. -/
def applyEvent (event : ClerkEvent) : Handling (Bool × TenancyDatabase) :=
  let data : JsValue := .object event.data
  match event.type with
  | "organizationMembership.created" | "organizationMembership.updated" => do
    let m ← parsed (parseMembershipSync data)
    let db ← syncMembership draws db m
    pure (true, db)
  | "organizationMembership.deleted" => do
    let ref ← parsed (parseMembershipRef data)
    let db ← removeMembership db ref.clerkOrgId ref.clerkUserId
    pure (true, db)
  | "user.created" | "user.updated" => do
    let u ← parsed (parseUserUpdate data)
    let db ← updateUser db u
    pure (true, db)
  | "user.deleted" => do
    let clerkUserId ← parsed (parseDeletedId data)
    let db ← revokeUser db clerkUserId
    pure (true, db)
  | "organization.created" | "organization.updated" => do
    let o ← parsed (parseOrgUpdate data)
    let db ← upsertOrganization draws db o
    pure (true, db)
  | _ => pure (false, db)

/-- Handle one event; one that throws leaves the tables as they were. -/
def handle (event : ClerkEvent) : Handling Bool × TenancyDatabase :=
  match applyEvent draws db event with
  | .ok (handled, after) => (.ok handled, after)
  | .error error => (.error error, db)

/-- `DrizzlePrincipalResolver.resolve`: the principal of a verified subject, if it has access. -/
def resolve (subject : String) : Option PrincipalContext := do
  let user ← db.users.find? (·.externalAuthId = some subject)
  let memberships := db.memberships.filter fun row =>
    row.userId = user.id ∧ row.organizationId = user.organizationId
  -- Prefer the org-level membership (no team) for the principal's role.
  let primary ← memberships.find? (·.teamId.isNone) <|> memberships.head?
  let projectRows := db.projectMemberships.filter fun row =>
    row.userId = user.id ∧ row.organizationId = user.organizationId
  pure {
    userId := user.id
    organizationId := user.organizationId
    role := primary.role
    actorKind := .human
    teamIds := memberships.filterMap (·.teamId)
    projectIds := projectRows.map (·.projectId) }

end Service

/-! ### Statements -/

section Specs

variable {draws : ProvisioningDraws} {db after : TenancyDatabase} {tables : TenancyTables}
  {externalId orgId userId name slug email displayName : String}

theorem statement_eq_ok : statement tables = .ok after ↔ after.toTenancyTables = tables := by
  unfold statement
  constructor
  · intro ran
    split at ran
    · cases ran
      rfl
    · cases ran
  · rintro rfl
    rw [dif_pos ⟨after.keys, after.references, after.texts⟩]
    rfl

theorem statement_ok_iff :
    (∃ after, statement tables = .ok after) ↔
      tables.Keys ∧ tables.References ∧ tables.Texts := by
  constructor
  · rintro ⟨after, ran⟩
    obtain rfl := statement_eq_ok.mp ran
    exact ⟨after.keys, after.references, after.texts⟩
  · intro valid
    exact ⟨⟨tables, valid.1, valid.2.1, valid.2.2⟩, statement_eq_ok.mpr rfl⟩

/-- An update that writes texts which can be stored leaves only such texts. -/
theorem storable_updateWhere {α : Type} {texts : α → List String} {selected : α → Bool}
    {set : α → α} {rows : List α} (stored : ∀ row ∈ rows, ∀ text ∈ texts row, Storable text)
    (written : ∀ row, ∀ text ∈ texts (set row), Storable text ∨ text ∈ texts row) :
    ∀ row ∈ updateWhere selected set rows, ∀ text ∈ texts row, Storable text := by
  intro row listed text given
  obtain ⟨before, hBefore, rfl⟩ := mem_updateWhere.mp listed
  split at given
  · exact (written before text given).elim id (stored before hBefore text)
  · exact stored before hBefore text given

theorem textParameters_eq_ok {texts : List String} :
    textParameters texts = .ok () ↔ ∀ text ∈ texts, Storable text := by
  unfold textParameters
  split
  · next storable => exact ⟨fun _ => storable, fun _ => rfl⟩
  · next unstorable => exact ⟨nofun, fun storable => absurd storable unstorable⟩

/-- What follows the parameters is run where all of them can be read. -/
theorem textParameters_bind_eq_ok {α : Type} {texts : List String} {next : Unit → Handling α}
    {result : α} : (textParameters texts >>= next) = .ok result ↔
      (∀ text ∈ texts, Storable text) ∧ next () = .ok result := by
  rw [bind_eq_ok, Unique.exists_iff]
  exact and_congr_left fun _ => textParameters_eq_ok

theorem orgIdByExternal_eq_some : orgIdByExternal db externalId = some orgId ↔
    ∃ org ∈ db.organizations, org.externalAuthId = some externalId ∧ org.id = orgId := by
  simp only [orgIdByExternal, Option.map_eq_some_iff,
    db.keys.organizations_external_auth_id_unique.find?_eq_some, and_assoc]

theorem orgIdByExternal_eq_none : orgIdByExternal db externalId = none ↔
    ∀ org ∈ db.organizations, org.externalAuthId ≠ some externalId := by
  simp [orgIdByExternal]

theorem userIdByExternal_eq_some : userIdByExternal db externalId = some userId ↔
    ∃ user ∈ db.users, user.externalAuthId = some externalId ∧ user.id = userId := by
  simp only [userIdByExternal, Option.map_eq_some_iff,
    db.keys.users_external_auth_id_unique.find?_eq_some, and_assoc]

theorem userIdByExternal_eq_none : userIdByExternal db externalId = none ↔
    ∀ user ∈ db.users, user.externalAuthId ≠ some externalId := by
  simp [userIdByExternal]

/-- What refers to a user lies in the user's organization. -/
theorem TenancyDatabase.organization_of_refers {user : UserRow} (listed : user ∈ db.users)
    (refers : (orgId, user.id) ∈ db.users.map fun user => (user.organizationId, user.id)) :
    orgId = user.organizationId := by
  obtain ⟨other, hOther, hPair⟩ := List.mem_map.mp refers
  obtain ⟨rfl, hId⟩ := Prod.ext_iff.mp hPair
  rw [db.keys.users_pkey.eq hOther listed (congrArg some hId) rfl]

theorem TenancyDatabase.membership_inOrg {user : UserRow} {row : MembershipRow}
    (listed : user ∈ db.users) (hRow : row ∈ db.memberships) (hUser : row.userId = user.id) :
    row.organizationId = user.organizationId := by
  have refers := refers_iff.mp db.references.memberships_org_user_fk row hRow _ rfl
  exact db.organization_of_refers listed (hUser ▸ refers)

theorem TenancyDatabase.projectMembership_inOrg {user : UserRow} {row : ProjectMembershipRow}
    (listed : user ∈ db.users) (hRow : row ∈ db.projectMemberships)
    (hUser : row.userId = user.id) : row.organizationId = user.organizationId := by
  have refers := refers_iff.mp db.references.project_memberships_org_user_fk row hRow _ rfl
  exact db.organization_of_refers listed (hUser ▸ refers)

/-! ### Organizations -/

/-- What the columns of an inserted organization ask of its texts. -/
theorem inserted_org_texts : (∀ text ∈ OrganizationRow.texts ⟨orgId, name, slug, some externalId⟩,
    Storable text) ↔ ∀ text ∈ [externalId, name, slug], Storable text := by
  simp only [OrganizationRow.texts, Option.toList_some, List.cons_append, List.nil_append,
    List.forall_mem_cons]
  tauto

theorem upsertOrg_cases (ran : upsertOrg draws db externalId name slug = .ok (orgId, after)) :
    (∃ org ∈ db.organizations, org.externalAuthId = some externalId ∧ org.id = orgId ∧
      after.toTenancyTables = { db.toTenancyTables with
        organizations := updateWhere (·.id = orgId)
          (fun row => { row with name := name, slug := slug }) db.organizations }) ∨
    ((∀ org ∈ db.organizations, org.externalAuthId ≠ some externalId) ∧
      after.toTenancyTables = { db.toTenancyTables with
        organizations := db.organizations ++ [⟨orgId, name, slug, some externalId⟩] }) := by
  unfold upsertOrg at ran
  obtain ⟨-, ran⟩ := textParameters_bind_eq_ok.mp ran
  split at ran
  · next existing found =>
    obtain ⟨written, hStatement, hResult⟩ := bind_eq_ok.mp ran
    cases hResult
    obtain ⟨org, listed, hExternal, hId⟩ := orgIdByExternal_eq_some.mp found
    exact .inl ⟨org, listed, hExternal, hId, statement_eq_ok.mp hStatement⟩
  · next missing =>
    obtain ⟨written, hStatement, hResult⟩ := bind_eq_ok.mp ran
    cases hResult
    exact .inr ⟨orgIdByExternal_eq_none.mp missing, statement_eq_ok.mp hStatement⟩

/-- What an upsert of an organization leaves behind. -/
structure UpsertedOrg (db after : TenancyDatabase) (externalId name slug orgId : String) :
    Prop where
  tables : after.toTenancyTables =
    { db.toTenancyTables with organizations := after.organizations }
  written : { id := orgId, name := name, slug := slug, externalAuthId := some externalId } ∈
    after.organizations
  known : ∀ org ∈ db.organizations, org.id = orgId ↔ org.externalAuthId = some externalId
  others : ∀ org ∈ db.organizations, org.id ≠ orgId → org ∈ after.organizations

theorem upsertOrg_spec (ran : upsertOrg draws db externalId name slug = .ok (orgId, after)) :
    UpsertedOrg db after externalId name slug orgId := by
  rcases upsertOrg_cases ran with ⟨org, listed, hExternal, rfl, tables⟩ | ⟨unknown, tables⟩
  · refine ⟨by rw [tables], ?_, fun other listed' => ?_, fun other listed' different => ?_⟩
    · rw [tables, mem_updateWhere]
      exact ⟨org, listed, by simp [← hExternal]⟩
    · constructor
      · intro same
        rwa [db.keys.organizations_pkey.eq listed' listed (congrArg some same) rfl]
      · intro hOther
        rw [db.keys.organizations_external_auth_id_unique.eq listed' listed hOther hExternal]
    · rw [tables]
      exact mem_updateWhere_of_not listed' (by simp [different])
  · refine ⟨by rw [tables], by simp [tables], fun other listed => ?_, fun other listed _ => by
      simp [tables, listed]⟩
    have unique := after.keys.organizations_pkey
    rw [tables] at unique
    have fresh := (unique_insert.mp unique).2 _ rfl other listed
    simp only [ne_eq, Option.some.injEq] at fresh
    simp [fresh, unknown other listed]

/-- The slug is no other organization's. -/
def SlugFree (db : TenancyDatabase) (externalId slug : String) : Prop :=
  ∀ org ∈ db.organizations, org.slug = slug → org.externalAuthId = some externalId

theorem UpsertedOrg.slugFree (upserted : UpsertedOrg db after externalId name slug orgId) :
    SlugFree db externalId slug := by
  rintro org listed rfl
  by_cases same : org.id = orgId
  · exact (upserted.known org listed).mp same
  · rw [after.keys.organizations_slug_unique.eq (upserted.others org listed same)
      upserted.written rfl rfl]

theorem statement_renamesOrg {org : OrganizationRow} (listed : org ∈ db.organizations)
    (hExternal : org.externalAuthId = some externalId) (free : SlugFree db externalId slug)
    (storable : ∀ text ∈ [externalId, name, slug], Storable text) :
    ∃ after, statement { db.toTenancyTables with
      organizations := updateWhere (·.id = org.id)
        (fun row => { row with name := name, slug := slug }) db.organizations } = .ok after := by
  have single := db.keys.organizations_pkey.single (·.id = org.id) org.id (by simp)
  let renamed := updateWhere (·.id = org.id)
    (fun row => { row with name := name, slug := slug }) db.organizations
  have pkey : Unique (some ·.id) renamed := db.keys.organizations_pkey.updateWhere fun _ => rfl
  have external : Unique (·.externalAuthId) renamed :=
    db.keys.organizations_external_auth_id_unique.updateWhere fun _ => rfl
  have slugs : Unique (some ·.slug) renamed := by
    refine (unique_updateWhere db.keys.organizations_slug_unique single).mpr ?_
    rintro row - - k hSlug other listed' different hOther
    have slugOf : other.slug = slug := Option.some.inj (hOther.trans hSlug.symm)
    have same := db.keys.organizations_external_auth_id_unique.eq listed' listed
      (free other listed' slugOf) hExternal
    simp [same] at different
  refine statement_ok_iff.mpr ⟨db.keys.withOrganizations pkey slugs external,
    db.references.withOrganizations (subset_map_updateWhere fun _ => rfl),
    storable_updateWhere db.texts.organizations fun row text given => ?_, db.texts.users⟩
  rcases List.mem_append.mp given with written | kept
  · exact .inl (storable text (List.mem_cons_of_mem _ written))
  · exact .inr (List.mem_append_right _ kept)

theorem statement_addsOrg (fresh : ∀ org ∈ db.organizations, org.id ≠ orgId)
    (unknown : ∀ org ∈ db.organizations, org.externalAuthId ≠ some externalId)
    (free : SlugFree db externalId slug)
    (storable : ∀ text ∈ [externalId, name, slug], Storable text) :
    ∃ after, statement { db.toTenancyTables with
      organizations := db.organizations ++ [{
        id := orgId
        name := name
        slug := slug
        externalAuthId := some externalId }] } = .ok after := by
  let added := db.organizations ++ [{
    id := orgId
    name := name
    slug := slug
    externalAuthId := some externalId }]
  have pkey : Unique (some ·.id) added :=
    unique_insert.mpr ⟨db.keys.organizations_pkey, by simpa using fresh⟩
  have slugs : Unique (some ·.slug) added := by
    refine unique_insert.mpr ⟨db.keys.organizations_slug_unique, ?_⟩
    intro k hSlug other listed hOther
    exact unknown other listed (free other listed (Option.some.inj (hOther.trans hSlug.symm)))
  have external : Unique (·.externalAuthId) added := by
    refine unique_insert.mpr ⟨db.keys.organizations_external_auth_id_unique, ?_⟩
    intro k hExternal other listed hOther
    exact unknown other listed (hOther.trans hExternal.symm)
  have kept : db.organizations.map (·.id) ⊆ added.map (·.id) := by simp [added]
  refine statement_ok_iff.mpr ⟨db.keys.withOrganizations pkey slugs external,
    db.references.withOrganizations kept, ?_, db.texts.users⟩
  intro row listed
  rcases List.mem_append.mp listed with before | new
  · exact db.texts.organizations row before
  · rw [List.mem_singleton.mp new]
    exact inserted_org_texts.mpr storable

theorem upsertOrg_ok_iff (fresh : ∀ org ∈ db.organizations, org.id ≠ draws.orgId) :
    (∃ orgId after, upsertOrg draws db externalId name slug = .ok (orgId, after)) ↔
      (∀ text ∈ [externalId, name, slug], Storable text) ∧ SlugFree db externalId slug := by
  constructor
  · rintro ⟨orgId, after, ran⟩
    exact ⟨(textParameters_bind_eq_ok.mp ran).1, (upsertOrg_spec ran).slugFree⟩
  · rintro ⟨storable, free⟩
    rw [upsertOrg, textParameters_eq_ok.mpr storable, ok_bind]
    split
    · next existing found =>
      obtain ⟨org, listed, hExternal, rfl⟩ := orgIdByExternal_eq_some.mp found
      obtain ⟨after, ran⟩ := statement_renamesOrg listed hExternal free storable
      rw [ran]
      exact ⟨_, _, rfl⟩
    · next missing =>
      have unknown := orgIdByExternal_eq_none.mp missing
      obtain ⟨after, ran⟩ := statement_addsOrg fresh unknown free storable
      rw [ran]
      exact ⟨_, _, rfl⟩

theorem upsertOrganization_eq_ok {o : OrgUpdate} : upsertOrganization draws db o = .ok after ↔
    ∃ orgId, upsertOrg draws db o.clerkOrgId o.name o.slug = .ok (orgId, after) := by
  rw [upsertOrganization, bind_eq_ok]
  constructor
  · rintro ⟨⟨orgId, written⟩, hOrg, result⟩
    cases result
    exact ⟨orgId, hOrg⟩
  · rintro ⟨orgId, hOrg⟩
    exact ⟨(orgId, after), hOrg, rfl⟩

theorem upsertOrganization_ok_iff {o : OrgUpdate}
    (fresh : ∀ org ∈ db.organizations, org.id ≠ draws.orgId) :
    (∃ after, upsertOrganization draws db o = .ok after) ↔
      (∀ text ∈ [o.clerkOrgId, o.name, o.slug], Storable text) ∧
        SlugFree db o.clerkOrgId o.slug := by
  rw [← upsertOrg_ok_iff fresh, exists_comm]
  exact exists_congr fun after => upsertOrganization_eq_ok

/-! ### Users -/

theorem inserted_user_texts :
    (∀ text ∈ UserRow.texts ⟨userId, orgId, email, displayName, some externalId⟩, Storable text) ↔
      ∀ text ∈ [externalId, email, displayName], Storable text := by
  simp only [UserRow.texts, Option.toList_some, List.cons_append, List.nil_append,
    List.forall_mem_cons]
  tauto

theorem upsertUser_cases
    (ran : upsertUser draws db externalId orgId email displayName = .ok (userId, after)) :
    (∃ user ∈ db.users, user.externalAuthId = some externalId ∧ user.id = userId ∧
      after.toTenancyTables = { db.toTenancyTables with
        users := updateWhere (·.id = userId) (fun row => { row with
          organizationId := orgId
          email := email
          displayName := displayName }) db.users }) ∨
    ((∀ user ∈ db.users, user.externalAuthId ≠ some externalId) ∧
      after.toTenancyTables = { db.toTenancyTables with
        users := db.users ++ [⟨userId, orgId, email, displayName, some externalId⟩] }) := by
  unfold upsertUser at ran
  obtain ⟨-, ran⟩ := textParameters_bind_eq_ok.mp ran
  split at ran
  · next existing found =>
    obtain ⟨written, hStatement, hResult⟩ := bind_eq_ok.mp ran
    cases hResult
    obtain ⟨user, listed, hExternal, hId⟩ := userIdByExternal_eq_some.mp found
    exact .inl ⟨user, listed, hExternal, hId, statement_eq_ok.mp hStatement⟩
  · next missing =>
    obtain ⟨written, hStatement, hResult⟩ := bind_eq_ok.mp ran
    cases hResult
    exact .inr ⟨userIdByExternal_eq_none.mp missing, statement_eq_ok.mp hStatement⟩

/-- What an upsert of a user leaves behind. -/
structure UpsertedUser (db after : TenancyDatabase)
    (externalId organizationId email displayName userId : String) : Prop where
  tables : after.toTenancyTables = { db.toTenancyTables with users := after.users }
  written : {
    id := userId
    organizationId := organizationId
    email := email
    displayName := displayName
    externalAuthId := some externalId } ∈ after.users
  known : ∀ user ∈ db.users, user.id = userId ↔ user.externalAuthId = some externalId
  others : ∀ user ∈ db.users, user.id ≠ userId → user ∈ after.users

theorem upsertUser_spec
    (ran : upsertUser draws db externalId orgId email displayName = .ok (userId, after)) :
    UpsertedUser db after externalId orgId email displayName userId := by
  rcases upsertUser_cases ran with ⟨user, listed, hExternal, rfl, tables⟩ | ⟨unknown, tables⟩
  · refine ⟨by rw [tables], ?_, fun other listed' => ?_, fun other listed' different => ?_⟩
    · rw [tables, mem_updateWhere]
      exact ⟨user, listed, by simp [← hExternal]⟩
    · constructor
      · intro same
        rwa [db.keys.users_pkey.eq listed' listed (congrArg some same) rfl]
      · intro hOther
        rw [db.keys.users_external_auth_id_unique.eq listed' listed hOther hExternal]
    · rw [tables]
      exact mem_updateWhere_of_not listed' (by simp [different])
  · refine ⟨by rw [tables], by simp [tables], fun other listed => ?_, fun other listed _ => by
      simp [tables, listed]⟩
    have unique := after.keys.users_pkey
    rw [tables] at unique
    have fresh := (unique_insert.mp unique).2 _ rfl other listed
    simp only [ne_eq, Option.some.injEq] at fresh
    simp [fresh, unknown other listed]

/-- The email is no other user's of the organization. -/
def EmailFree (db : TenancyDatabase) (externalId orgId email : String) : Prop :=
  ∀ user ∈ db.users, user.organizationId = orgId → user.email = email →
    user.externalAuthId = some externalId

/-- Every membership of the user lies in the organization. -/
def SoleTenant (db : TenancyDatabase) (externalId orgId : String) : Prop :=
  ∀ user ∈ db.users, user.externalAuthId = some externalId →
    (∀ row ∈ db.memberships, row.userId = user.id → row.organizationId = orgId) ∧
    ∀ row ∈ db.projectMemberships, row.userId = user.id → row.organizationId = orgId

theorem UpsertedUser.emailFree
    (upserted : UpsertedUser db after externalId orgId email displayName userId) :
    EmailFree db externalId orgId email := by
  rintro user listed rfl rfl
  by_cases same : user.id = userId
  · exact (upserted.known user listed).mp same
  · rw [after.keys.users_org_email_unique.eq (upserted.others user listed same) upserted.written
      rfl rfl]

/-- The row that a membership refers to is the one that was written. -/
theorem UpsertedUser.soleTenant
    (upserted : UpsertedUser db after externalId orgId email displayName userId) :
    SoleTenant db externalId orgId := by
  intro user listed hExternal
  have same := (upserted.known user listed).mpr hExternal
  have tables := upserted.tables
  constructor
  · intro row hRow hUser
    exact after.membership_inOrg upserted.written (by rw [tables]; exact hRow) (hUser.trans same)
  · intro row hRow hUser
    exact after.projectMembership_inOrg upserted.written (by rw [tables]; exact hRow)
      (hUser.trans same)

/-- A known user can be moved to the organization. -/
theorem statement_movesUser {user : UserRow} (listed : user ∈ db.users)
    (hExternal : user.externalAuthId = some externalId) (hOrg : orgId ∈ db.organizations.map (·.id))
    (free : EmailFree db externalId orgId email) (settled : SoleTenant db externalId orgId)
    (storable : ∀ text ∈ [externalId, email, displayName], Storable text) :
    ∃ after, statement { db.toTenancyTables with
      users := updateWhere (·.id = user.id) (fun row => { row with
        organizationId := orgId
        email := email
        displayName := displayName }) db.users } = .ok after := by
  have single := db.keys.users_pkey.single (·.id = user.id) user.id (by simp)
  let moved := updateWhere (·.id = user.id) (fun row => { row with
    organizationId := orgId
    email := email
    displayName := displayName }) db.users
  have pkey : Unique (some ·.id) moved := db.keys.users_pkey.updateWhere fun _ => rfl
  have external : Unique (·.externalAuthId) moved :=
    db.keys.users_external_auth_id_unique.updateWhere fun _ => rfl
  have emails : Unique (fun row => some (row.organizationId, row.email)) moved := by
    refine (unique_updateWhere db.keys.users_org_email_unique single).mpr ?_
    rintro row - - k hKey other listed' different hOther
    obtain ⟨hOrganization, hEmail⟩ := Prod.ext_iff.mp (Option.some.inj (hOther.trans hKey.symm))
    have same := db.keys.users_external_auth_id_unique.eq listed' listed
      (free other listed' hOrganization hEmail) hExternal
    simp [same] at different
  have organizations : Refers (some ·.organizationId) moved (·.id) db.organizations := by
    refine refers_iff.mpr fun row hRow k hKey => ?_
    obtain ⟨before, hBefore, rfl⟩ := mem_updateWhere.mp hRow
    split at hKey
    · cases hKey
      exact hOrg
    · exact refers_iff.mp db.references.users_organization_id_fk before hBefore k hKey
  obtain ⟨inTeams, inProjects⟩ := settled user listed hExternal
  have memberships : Refers (fun row => some (row.organizationId, row.userId)) db.memberships
      (fun user => (user.organizationId, user.id)) moved := by
    refine db.references.memberships_org_user_fk.updateWhere_targets ?_
    intro target hTarget isUser row hRow refers
    obtain ⟨hOrganization, hUser⟩ := Prod.ext_iff.mp (Option.some.inj refers)
    have here := inTeams row hRow (hUser.trans (of_decide_eq_true isUser))
    exact Prod.ext (here.symm.trans hOrganization) rfl
  have projectMemberships : Refers (fun row => some (row.organizationId, row.userId))
      db.projectMemberships (fun user => (user.organizationId, user.id)) moved := by
    refine db.references.project_memberships_org_user_fk.updateWhere_targets ?_
    intro target hTarget isUser row hRow refers
    obtain ⟨hOrganization, hUser⟩ := Prod.ext_iff.mp (Option.some.inj refers)
    have here := inProjects row hRow (hUser.trans (of_decide_eq_true isUser))
    exact Prod.ext (here.symm.trans hOrganization) rfl
  refine statement_ok_iff.mpr ⟨db.keys.withUsers pkey emails external,
    db.references.withUsers organizations (subset_map_updateWhere fun _ => rfl) memberships
      projectMemberships, db.texts.organizations,
    storable_updateWhere db.texts.users fun row text given => ?_⟩
  rcases List.mem_append.mp given with written | kept
  · exact .inl (storable text (List.mem_cons_of_mem _ written))
  · exact .inr (List.mem_append_right _ kept)

/-- An unknown user can be added to the organization. -/
theorem statement_addsUser (fresh : ∀ user ∈ db.users, user.id ≠ userId)
    (unknown : ∀ user ∈ db.users, user.externalAuthId ≠ some externalId)
    (hOrg : orgId ∈ db.organizations.map (·.id)) (free : EmailFree db externalId orgId email)
    (storable : ∀ text ∈ [externalId, email, displayName], Storable text) :
    ∃ after, statement { db.toTenancyTables with
      users := db.users ++ [{
        id := userId
        organizationId := orgId
        email := email
        displayName := displayName
        externalAuthId := some externalId }] } = .ok after := by
  let added := db.users ++ [{
    id := userId
    organizationId := orgId
    email := email
    displayName := displayName
    externalAuthId := some externalId }]
  have pkey : Unique (some ·.id) added :=
    unique_insert.mpr ⟨db.keys.users_pkey, by simpa using fresh⟩
  have emails : Unique (fun row => some (row.organizationId, row.email)) added := by
    refine unique_insert.mpr ⟨db.keys.users_org_email_unique, ?_⟩
    rintro k hKey other listed hOther
    obtain ⟨hOrganization, hEmail⟩ := Prod.ext_iff.mp (Option.some.inj (hOther.trans hKey.symm))
    exact unknown other listed (free other listed hOrganization hEmail)
  have external : Unique (·.externalAuthId) added := by
    refine unique_insert.mpr ⟨db.keys.users_external_auth_id_unique, ?_⟩
    intro k hExternal other listed hOther
    exact unknown other listed (hOther.trans hExternal.symm)
  have organizations : Refers (some ·.organizationId) added (·.id) db.organizations :=
    refers_insert.mpr ⟨db.references.users_organization_id_fk, by simpa using hOrg⟩
  have ids : db.users.map (·.id) ⊆ added.map (·.id) := by simp [added]
  have pairs : db.users.map (fun user => (user.organizationId, user.id)) ⊆
      added.map fun user => (user.organizationId, user.id) := by simp [added]
  refine statement_ok_iff.mpr ⟨db.keys.withUsers pkey emails external,
    db.references.withUsers organizations ids (db.references.memberships_org_user_fk.mono pairs)
      (db.references.project_memberships_org_user_fk.mono pairs), db.texts.organizations, ?_⟩
  intro row listed
  rcases List.mem_append.mp listed with before | new
  · exact db.texts.users row before
  · rw [List.mem_singleton.mp new]
    exact inserted_user_texts.mpr storable

theorem upsertUser_ok_iff (fresh : ∀ user ∈ db.users, user.id ≠ draws.userId)
    (hOrg : orgId ∈ db.organizations.map (·.id)) :
    (∃ userId after, upsertUser draws db externalId orgId email displayName =
        .ok (userId, after)) ↔
      (∀ text ∈ [externalId, email, displayName], Storable text) ∧
        EmailFree db externalId orgId email ∧ SoleTenant db externalId orgId := by
  constructor
  · rintro ⟨userId, after, ran⟩
    have upserted := upsertUser_spec ran
    exact ⟨(textParameters_bind_eq_ok.mp ran).1, upserted.emailFree, upserted.soleTenant⟩
  · rintro ⟨storable, free, settled⟩
    rw [upsertUser, textParameters_eq_ok.mpr storable, ok_bind]
    split
    · next existing found =>
      obtain ⟨user, listed, hExternal, rfl⟩ := userIdByExternal_eq_some.mp found
      obtain ⟨after, ran⟩ := statement_movesUser listed hExternal hOrg free settled storable
      rw [ran]
      exact ⟨_, _, rfl⟩
    · next missing =>
      have unknown := userIdByExternal_eq_none.mp missing
      obtain ⟨after, ran⟩ := statement_addsUser fresh unknown hOrg free storable
      rw [ran]
      exact ⟨_, _, rfl⟩

theorem updateUser_eq_ok {u : UserUpdate} : updateUser db u = .ok after ↔
    (∀ text ∈ [u.clerkUserId, u.email, u.displayName], Storable text) ∧
      after.toTenancyTables = { db.toTenancyTables with
        users := updateWhere (·.externalAuthId = some u.clerkUserId)
          (fun row => { row with email := u.email, displayName := u.displayName }) db.users } := by
  rw [updateUser, textParameters_bind_eq_ok, statement_eq_ok]

theorem revokeUser_eq_ok {clerkUserId : String} : revokeUser db clerkUserId = .ok after ↔
    Storable clerkUserId ∧ after.toTenancyTables = { db.toTenancyTables with
      users := updateWhere (·.externalAuthId = some clerkUserId)
        (fun row => { row with externalAuthId := none }) db.users } := by
  rw [revokeUser, textParameters_bind_eq_ok, statement_eq_ok, List.forall_mem_singleton]

/-! ### Memberships -/

theorem isOrgLevel_iff {row : MembershipRow} : isOrgLevel orgId userId row = true ↔
    row.userId = userId ∧ row.organizationId = orgId ∧ row.teamId = none := by
  simp [isOrgLevel]

/-- An upsert of a membership changes the role of an organization-level row, or adds one where there
is none. -/
theorem upsertMembership_cases {role : Role}
    (ran : upsertMembership draws db orgId userId role = .ok after) :
    (∃ found ∈ db.memberships, isOrgLevel orgId userId found = true ∧
      after.toTenancyTables = { db.toTenancyTables with
        memberships := updateWhere (·.id = found.id) (fun row => { row with role := role })
          db.memberships }) ∨
    ((∀ row ∈ db.memberships, isOrgLevel orgId userId row = false) ∧
      after.toTenancyTables = { db.toTenancyTables with
        memberships := db.memberships ++ [{
          id := draws.membershipId
          organizationId := orgId
          userId := userId
          teamId := none
          role := role }] }) := by
  unfold upsertMembership at ran
  split at ran
  · next found hFound =>
    exact .inl ⟨found, List.mem_of_find?_eq_some hFound, List.find?_some hFound,
      statement_eq_ok.mp ran⟩
  · next missing =>
    exact .inr ⟨fun row listed => by simpa using List.find?_eq_none.mp missing row listed,
      statement_eq_ok.mp ran⟩

/-- An upsert of a membership leaves the other tables. -/
theorem upsertMembership_tables {role : Role}
    (ran : upsertMembership draws db orgId userId role = .ok after) :
    after.toTenancyTables = { db.toTenancyTables with memberships := after.memberships } := by
  rcases upsertMembership_cases ran with ⟨_, _, _, tables⟩ | ⟨_, tables⟩ <;> rw [tables]

/-- The upsert leaves a row with the role, whether it found one or added it. -/
theorem upsertMembership_written {role : Role}
    (ran : upsertMembership draws db orgId userId role = .ok after) :
    ∃ row ∈ after.memberships, isOrgLevel orgId userId row = true ∧ row.role = role := by
  rcases upsertMembership_cases ran with ⟨found, listed, level, tables⟩ | ⟨-, tables⟩
  · refine ⟨{ found with role := role }, ?_, level, rfl⟩
    rw [tables]
    exact set_mem_updateWhere listed (by simp)
  · refine ⟨⟨draws.membershipId, orgId, userId, none, role⟩, ?_, ?_, rfl⟩
    · rw [tables]
      exact List.mem_append_right _ (List.mem_singleton_self _)
    · exact isOrgLevel_iff.mpr ⟨rfl, rfl, rfl⟩

theorem upsertMembership_succeeds (fresh : ∀ row ∈ db.memberships, row.id ≠ draws.membershipId)
    (member : (orgId, userId) ∈ db.users.map fun user => (user.organizationId, user.id))
    (role : Role) : ∃ after, upsertMembership draws db orgId userId role = .ok after := by
  unfold upsertMembership
  split
  · next found _ =>
    let changed := updateWhere (·.id = found.id) (fun row => { row with role := role })
      db.memberships
    have pkey : Unique (some ·.id) changed := db.keys.memberships_pkey.updateWhere fun _ => rfl
    have userTeam : Unique (fun row => row.teamId.map (row.userId, ·)) changed :=
      db.keys.memberships_user_team_unique.updateWhere fun _ => rfl
    refine statement_ok_iff.mpr ⟨db.keys.withMemberships pkey userTeam,
      db.references.withMemberships fun row listed => ?_, db.texts.organizations, db.texts.users⟩
    obtain ⟨before, hBefore, rfl⟩ := mem_updateWhere.mp listed
    exact ⟨before, hBefore, by split <;> simp⟩
  · exact statement_ok_iff.mpr ⟨db.keys.withMemberships
      (unique_insert.mpr ⟨db.keys.memberships_pkey, by simpa using fresh⟩)
      (unique_insert.mpr ⟨db.keys.memberships_user_team_unique, by simp⟩),
      db.references.insertMembership member rfl, db.texts.organizations, db.texts.users⟩

/-! ### Events -/

@[simp] theorem parsed_ok {α : Type} (value : α) : parsed (.ok value) = .ok value := rfl

@[simp] theorem parsed_error {α : Type} (error : ClerkPayloadError) :
    parsed (.error error : ClerkParsed α) = .error (.payload error) := rfl

theorem parsed_bind_eq_ok {α β : Type} {payload : ClerkParsed α} {next : α → Handling β}
    {result : β} : (parsed payload >>= next) = .ok result ↔
      ∃ value, payload = .ok value ∧ next value = .ok result := by
  cases payload <;> simp

section Kinds

variable {event : ClerkEvent}

def isMembershipSync (event : ClerkEvent) : Prop :=
  event.type = "organizationMembership.created" ∨ event.type = "organizationMembership.updated"

theorem applyEvent_sync (kind : isMembershipSync event) :
    applyEvent draws db event = (do
      let m ← parsed (parseMembershipSync (.object event.data))
      let db ← syncMembership draws db m
      pure (true, db)) := by
  rcases kind with hType | hType <;> simp only [applyEvent, hType]

theorem applyEvent_removal (kind : event.type = "organizationMembership.deleted") :
    applyEvent draws db event = (do
      let ref ← parsed (parseMembershipRef (.object event.data))
      let db ← removeMembership db ref.clerkOrgId ref.clerkUserId
      pure (true, db)) := by
  simp only [applyEvent, kind]

theorem applyEvent_update (kind : event.type = "user.created" ∨ event.type = "user.updated") :
    applyEvent draws db event = (do
      let u ← parsed (parseUserUpdate (.object event.data))
      let db ← updateUser db u
      pure (true, db)) := by
  rcases kind with hType | hType <;> simp only [applyEvent, hType]

theorem applyEvent_deletion (kind : event.type = "user.deleted") :
    applyEvent draws db event = (do
      let clerkUserId ← parsed (parseDeletedId (.object event.data))
      let db ← revokeUser db clerkUserId
      pure (true, db)) := by
  simp only [applyEvent, kind]

end Kinds

/-- What an event that is handled does to the tables. -/
inductive Applied (draws : ProvisioningDraws) (db : TenancyDatabase) (event : ClerkEvent) :
    TenancyDatabase → Prop
  | synced {m : MembershipSync} {after : TenancyDatabase}
      (read : parseMembershipSync (.object event.data) = .ok m)
      (ran : syncMembership draws db m = .ok after) : Applied draws db event after
  | removed {ref : MembershipRef} {after : TenancyDatabase}
      (read : parseMembershipRef (.object event.data) = .ok ref)
      (ran : removeMembership db ref.clerkOrgId ref.clerkUserId = .ok after) :
      Applied draws db event after
  | userUpdated {u : UserUpdate} {after : TenancyDatabase}
      (read : parseUserUpdate (.object event.data) = .ok u)
      (ran : updateUser db u = .ok after) : Applied draws db event after
  | revoked {clerkUserId : String} {after : TenancyDatabase}
      (read : parseDeletedId (.object event.data) = .ok clerkUserId)
      (ran : revokeUser db clerkUserId = .ok after) : Applied draws db event after
  | orgUpserted {o : OrgUpdate} {after : TenancyDatabase}
      (read : parseOrgUpdate (.object event.data) = .ok o)
      (ran : upsertOrganization draws db o = .ok after) : Applied draws db event after
  | ignored : Applied draws db event db

theorem applied_of_applyEvent {event : ClerkEvent} {handled : Bool}
    (ran : applyEvent draws db event = .ok (handled, after)) : Applied draws db event after := by
  unfold applyEvent at ran
  split at ran
  case h_1 | h_2 =>
    obtain ⟨m, read, ran⟩ := parsed_bind_eq_ok.mp ran
    obtain ⟨_, ran, result⟩ := bind_eq_ok.mp ran
    cases result
    exact .synced read ran
  case h_3 =>
    obtain ⟨ref, read, ran⟩ := parsed_bind_eq_ok.mp ran
    obtain ⟨_, ran, result⟩ := bind_eq_ok.mp ran
    cases result
    exact .removed read ran
  case h_4 | h_5 =>
    obtain ⟨u, read, ran⟩ := parsed_bind_eq_ok.mp ran
    obtain ⟨_, ran, result⟩ := bind_eq_ok.mp ran
    cases result
    exact .userUpdated read ran
  case h_6 =>
    obtain ⟨clerkUserId, read, ran⟩ := parsed_bind_eq_ok.mp ran
    obtain ⟨_, ran, result⟩ := bind_eq_ok.mp ran
    cases result
    exact .revoked read ran
  case h_7 | h_8 =>
    obtain ⟨o, read, ran⟩ := parsed_bind_eq_ok.mp ran
    obtain ⟨_, ran, result⟩ := bind_eq_ok.mp ran
    cases result
    exact .orgUpserted read ran
  case h_9 =>
    cases ran
    exact .ignored

/-- An event is applied as a whole, or throws and leaves the tables as they were. -/
theorem handle_cases (draws : ProvisioningDraws) (db : TenancyDatabase) (event : ClerkEvent) :
    Applied draws db event (handle draws db event).2 ∨
      ∃ error, handle draws db event = (.error error, db) := by
  unfold handle
  cases ran : applyEvent draws db event with
  | error error => exact .inr ⟨error, rfl⟩
  | ok result => exact .inl (applied_of_applyEvent ran)

/-- A query of users by their external id. -/
theorem resolve_eq_none_of_unknown (unknown : ∀ user ∈ db.users,
    user.externalAuthId ≠ some externalId) : resolve db externalId = none := by
  have missing : db.users.find? (·.externalAuthId = some externalId) = none := by
    simpa using unknown
  simp [resolve, missing]

end Specs
end Donna
