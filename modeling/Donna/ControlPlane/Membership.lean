import Donna.Base.Machine
import Donna.ControlPlane.Provisioning

/-! Membership events: when one makes its user authorizable.  The upserts are keyed by external id,
and the slug, the email and the tenant of the user are what the constraints can refuse. -/

namespace Donna

open Js Tables

/-- Random ids that no row has yet. -/
structure ProvisioningDraws.Fresh (draws : ProvisioningDraws) (db : TenancyDatabase) : Prop where
  orgId : ∀ org ∈ db.organizations, org.id ≠ draws.orgId
  userId : ∀ user ∈ db.users, user.id ≠ draws.userId
  membershipId : ∀ row ∈ db.memberships, row.id ≠ draws.membershipId

/-- One event of a history, with what it draws. -/
def provision (db : TenancyDatabase) (input : ProvisioningDraws × ClerkEvent) :
    Handling Bool × TenancyDatabase :=
  handle input.1 db input.2

/-- A membership row lies in the organization behind an external id. -/
def LiesIn (db : TenancyDatabase) (organizationId clerkOrgId : String) : Prop :=
  ∃ org ∈ db.organizations, org.id = organizationId ∧ org.externalAuthId = some clerkOrgId

instance (db : TenancyDatabase) (organizationId clerkOrgId : String) :
    Decidable (LiesIn db organizationId clerkOrgId) :=
  inferInstanceAs (Decidable (∃ org ∈ db.organizations, _))

/-- What a membership event has for the text columns. -/
def MembershipSync.texts (m : MembershipSync) : List String :=
  [m.clerkOrgId, m.orgName, m.orgSlug] ++ [m.clerkUserId, m.email, m.displayName]

/-- What a membership event needs: its texts can be stored, the slug is no other organization's, the
email is no other user's of the organization, and the user is a member of no other organization. -/
structure Admissible (db : TenancyDatabase) (m : MembershipSync) : Prop where
  storable : ∀ text ∈ m.texts, Storable text
  slugFree : SlugFree db m.clerkOrgId m.orgSlug
  emailFree : ∀ user ∈ db.users, LiesIn db user.organizationId m.clerkOrgId →
    user.email = m.email → user.externalAuthId = some m.clerkUserId
  soleTenant : ∀ user ∈ db.users, user.externalAuthId = some m.clerkUserId →
    (∀ row ∈ db.memberships, row.userId = user.id → LiesIn db row.organizationId m.clerkOrgId) ∧
    ∀ row ∈ db.projectMemberships, row.userId = user.id →
      LiesIn db row.organizationId m.clerkOrgId

/-- The resolver finds the member in the organization of the event, with its role. -/
def Authorizes (db : TenancyDatabase) (m : MembershipSync) : Prop :=
  ∃ principal, resolve db m.clerkUserId = some principal ∧ principal.role = m.role ∧
    LiesIn db principal.organizationId m.clerkOrgId

section Sync

variable {draws : ProvisioningDraws} {db after : TenancyDatabase} {m : MembershipSync}

/-- The organization that an upsert wrote is the one behind the external id. -/
theorem UpsertedOrg.liesIn_iff {externalId name slug orgId organizationId : String}
    (upserted : UpsertedOrg db after externalId name slug orgId)
    (listed : organizationId ∈ db.organizations.map (·.id)) :
    LiesIn db organizationId externalId ↔ organizationId = orgId := by
  obtain ⟨org, hOrg, rfl⟩ := List.mem_map.mp listed
  constructor
  · rintro ⟨other, hOther, same, hExternal⟩
    exact same.symm.trans ((upserted.known other hOther).mpr hExternal)
  · rintro rfl
    exact ⟨org, hOrg, rfl, (upserted.known org hOrg).mp rfl⟩

theorem syncMembership_eq_ok : syncMembership draws db m = .ok after ↔
    ∃ orgId inOrg userId withUser,
      upsertOrg draws db m.clerkOrgId m.orgName m.orgSlug = .ok (orgId, inOrg) ∧
      upsertUser draws inOrg m.clerkUserId orgId m.email m.displayName = .ok (userId, withUser) ∧
      upsertMembership draws withUser orgId userId m.role = .ok after := by
  simp only [syncMembership, bind_eq_ok, Prod.exists]
  constructor
  · rintro ⟨orgId, inOrg, hOrg, userId, withUser, hUser, ran⟩
    exact ⟨orgId, inOrg, userId, withUser, hOrg, hUser, ran⟩
  · rintro ⟨orgId, inOrg, userId, withUser, hOrg, hUser, ran⟩
    exact ⟨orgId, inOrg, hOrg, userId, withUser, hUser, ran⟩

/-- What the upsert of the user asks of the tables, once the organization is there. -/
theorem UpsertedOrg.user_ok_iff {inOrg : TenancyDatabase} {name slug orgId email displayName
    clerkOrgId clerkUserId : String}
    (upserted : UpsertedOrg db inOrg clerkOrgId name slug orgId) (fresh : draws.Fresh db) :
    (∃ userId after, upsertUser draws inOrg clerkUserId orgId email displayName =
        .ok (userId, after)) ↔
      (∀ text ∈ [clerkUserId, email, displayName], Storable text) ∧
      (∀ user ∈ db.users, LiesIn db user.organizationId clerkOrgId → user.email = email →
        user.externalAuthId = some clerkUserId) ∧
      ∀ user ∈ db.users, user.externalAuthId = some clerkUserId →
        (∀ row ∈ db.memberships, row.userId = user.id →
          LiesIn db row.organizationId clerkOrgId) ∧
        ∀ row ∈ db.projectMemberships, row.userId = user.id →
          LiesIn db row.organizationId clerkOrgId := by
  have users : inOrg.users = db.users := by rw [upserted.tables]
  have memberships : inOrg.memberships = db.memberships := by rw [upserted.tables]
  have projectMemberships : inOrg.projectMemberships = db.projectMemberships := by
    rw [upserted.tables]
  have hOrg : orgId ∈ inOrg.organizations.map (·.id) := List.mem_map_of_mem upserted.written
  rw [upsertUser_ok_iff (by rw [users]; exact fresh.userId) hOrg, EmailFree, SoleTenant, users,
    memberships, projectMemberships]
  have inUsers : ∀ user ∈ db.users,
      LiesIn db user.organizationId clerkOrgId ↔ user.organizationId = orgId := fun user listed =>
    upserted.liesIn_iff (refers_iff.mp db.references.users_organization_id_fk user listed _ rfl)
  have inMemberships : ∀ row ∈ db.memberships,
      LiesIn db row.organizationId clerkOrgId ↔ row.organizationId = orgId := fun row listed =>
    upserted.liesIn_iff
      (refers_iff.mp db.references.memberships_organization_id_fk row listed _ rfl)
  have inProjects : ∀ row ∈ db.projectMemberships,
      LiesIn db row.organizationId clerkOrgId ↔ row.organizationId = orgId := fun row listed =>
    upserted.liesIn_iff
      (refers_iff.mp db.references.project_memberships_organization_id_fk row listed _ rfl)
  refine and_congr_right fun _ => and_congr ?_ ?_
  · exact forall₂_congr fun user listed => by rw [inUsers user listed]
  · refine forall₃_congr fun user _ _ => and_congr ?_ ?_
    · exact forall₂_congr fun row listed => by rw [inMemberships row listed]
    · exact forall₂_congr fun row listed => by rw [inProjects row listed]

/-- The sync succeeds exactly on an admissible event. -/
theorem syncMembership_ok_iff (fresh : draws.Fresh db) :
    (∃ after, syncMembership draws db m = .ok after) ↔ Admissible db m := by
  simp only [syncMembership_eq_ok]
  constructor
  · rintro ⟨after, orgId, inOrg, userId, withUser, hOrg, hUser, -⟩
    obtain ⟨orgTexts, slugFree⟩ := (upsertOrg_ok_iff fresh.orgId).mp ⟨orgId, inOrg, hOrg⟩
    obtain ⟨userTexts, emailFree, soleTenant⟩ :=
      ((upsertOrg_spec hOrg).user_ok_iff fresh).mp ⟨userId, withUser, hUser⟩
    exact ⟨List.forall_mem_append.mpr ⟨orgTexts, userTexts⟩, slugFree, emailFree, soleTenant⟩
  · intro admissible
    obtain ⟨orgTexts, userTexts⟩ := List.forall_mem_append.mp admissible.storable
    have hOrgOk : ∃ orgId inOrg,
        upsertOrg draws db m.clerkOrgId m.orgName m.orgSlug = .ok (orgId, inOrg) :=
      (upsertOrg_ok_iff fresh.orgId).mpr ⟨orgTexts, admissible.slugFree⟩
    obtain ⟨orgId, inOrg, hOrg⟩ := hOrgOk
    have orgUpserted := upsertOrg_spec hOrg
    have hUserOk : ∃ userId withUser,
        upsertUser draws inOrg m.clerkUserId orgId m.email m.displayName =
          .ok (userId, withUser) :=
      (orgUpserted.user_ok_iff fresh).mpr ⟨userTexts, admissible.emailFree, admissible.soleTenant⟩
    obtain ⟨userId, withUser, hUser⟩ := hUserOk
    have userUpserted := upsertUser_spec hUser
    have memberships : withUser.memberships = db.memberships := by
      rw [userUpserted.tables, orgUpserted.tables]
    obtain ⟨after, ran⟩ := upsertMembership_succeeds (by rw [memberships]; exact fresh.membershipId)
      (List.mem_map.mpr ⟨_, userUpserted.written, rfl⟩) m.role
    exact ⟨after, orgId, inOrg, userId, withUser, hOrg, hUser, ran⟩

/-! ### The tables of a history -/

/-- The rows that the service itself writes: no team and no project, and one membership a user. -/
structure OrgLevelOnly (db : TenancyDatabase) : Prop where
  noTeam : ∀ row ∈ db.memberships, row.teamId = none
  noProject : db.projectMemberships = []
  single : Unique (some ·.userId) db.memberships

theorem OrgLevelOnly.of_memberships (inv : OrgLevelOnly db)
    (memberships : after.memberships = db.memberships)
    (projectMemberships : after.projectMemberships = db.projectMemberships) :
    OrgLevelOnly after :=
  ⟨memberships ▸ inv.noTeam, projectMemberships.trans inv.noProject, memberships ▸ inv.single⟩

theorem OrgLevelOnly.upsertMembership {orgId userId : String} {role : Role}
    (inv : OrgLevelOnly db) (ran : upsertMembership draws db orgId userId role = .ok after) :
    OrgLevelOnly after := by
  rcases upsertMembership_cases ran with ⟨found, -, -, tables⟩ | ⟨missing, tables⟩
  · have memberships : after.memberships = updateWhere (·.id = found.id)
        (fun row => { row with role := role }) db.memberships := by rw [tables]
    refine ⟨?_, by rw [tables]; exact inv.noProject, ?_⟩
    · rw [memberships]
      intro row hRow
      obtain ⟨before, hBefore, rfl⟩ := mem_updateWhere.mp hRow
      have noTeam := inv.noTeam before hBefore
      split <;> exact noTeam
    · rw [memberships]
      exact inv.single.updateWhere fun _ => rfl
  · let added : MembershipRow := {
      id := draws.membershipId
      organizationId := orgId
      userId := userId
      teamId := none
      role := role }
    have memberships : after.memberships = db.memberships ++ [added] := by rw [tables]
    refine ⟨?_, by rw [tables]; exact inv.noProject, ?_⟩
    · rw [memberships]
      intro row hRow
      rcases List.mem_append.mp hRow with old | new
      · exact inv.noTeam row old
      · rw [List.mem_singleton.mp new]
    · rw [memberships]
      refine unique_insert.mpr ⟨inv.single, fun k hKey other hOther same => ?_⟩
      have hUser : other.userId = userId := Option.some.inj (same.trans hKey.symm)
      -- Both rows refer to the one user, whose organization is that of the new row.
      obtain ⟨user, listed, hPair⟩ := List.mem_map.mp (refers_iff.mp
        after.references.memberships_org_user_fk added (by simp [memberships]) _ rfl)
      obtain ⟨hOrganization, hId⟩ := Prod.ext_iff.mp hPair
      have inOrg := after.membership_inOrg listed (by simp [memberships, hOther])
        (hUser.trans hId.symm)
      have level : isOrgLevel orgId userId other = true := isOrgLevel_iff.mpr
        ⟨hUser, inOrg.trans hOrganization, inv.noTeam other hOther⟩
      rw [missing other hOther] at level
      cases level

theorem OrgLevelOnly.syncMembership (inv : OrgLevelOnly db)
    (ran : syncMembership draws db m = .ok after) : OrgLevelOnly after := by
  obtain ⟨orgId, inOrg, userId, withUser, hOrg, hUser, ran⟩ := syncMembership_eq_ok.mp ran
  have orgUpserted := upsertOrg_spec hOrg
  have userUpserted := upsertUser_spec hUser
  have inOrgOnly : OrgLevelOnly inOrg :=
    inv.of_memberships (by rw [orgUpserted.tables]) (by rw [orgUpserted.tables])
  have withUserOnly : OrgLevelOnly withUser :=
    inOrgOnly.of_memberships (by rw [userUpserted.tables]) (by rw [userUpserted.tables])
  exact withUserOnly.upsertMembership ran

theorem OrgLevelOnly.removeMembership {clerkOrgId clerkUserId : String} (inv : OrgLevelOnly db)
    (ran : removeMembership db clerkOrgId clerkUserId = .ok after) : OrgLevelOnly after := by
  unfold Donna.removeMembership at ran
  obtain ⟨-, ran⟩ := textParameters_bind_eq_ok.mp ran
  split at ran
  · have tables := statement_eq_ok.mp ran
    refine ⟨fun row listed => ?_, by rw [tables]; exact inv.noProject, ?_⟩
    · rw [tables] at listed
      exact inv.noTeam row (List.mem_filter.mp listed).1
    · rw [tables]
      exact inv.single.filter _
  · cases ran
    exact inv

theorem OrgLevelOnly.applied {event : ClerkEvent} (inv : OrgLevelOnly db)
    (applied : Applied draws db event after) : OrgLevelOnly after := by
  cases applied with
  | synced _ ran => exact inv.syncMembership ran
  | removed _ ran => exact inv.removeMembership ran
  | userUpdated _ ran =>
    obtain ⟨-, tables⟩ := updateUser_eq_ok.mp ran
    exact inv.of_memberships (by rw [tables]) (by rw [tables])
  | revoked _ ran =>
    obtain ⟨-, tables⟩ := revokeUser_eq_ok.mp ran
    exact inv.of_memberships (by rw [tables]) (by rw [tables])
  | orgUpserted _ ran =>
    obtain ⟨orgId, hOrg⟩ := upsertOrganization_eq_ok.mp ran
    have upserted := upsertOrg_spec hOrg
    exact inv.of_memberships (by rw [upserted.tables]) (by rw [upserted.tables])
  | ignored => exact inv

theorem OrgLevelOnly.handle (inv : OrgLevelOnly db) (event : ClerkEvent) :
    OrgLevelOnly (handle draws db event).2 := by
  rcases handle_cases draws db event with applied | ⟨error, refused⟩
  · exact inv.applied applied
  · rw [refused]
    exact inv

/-- Every history keeps to the rows that the service writes. -/
theorem orgLevelOnly_final (inputs : List (ProvisioningDraws × ClerkEvent)) :
    OrgLevelOnly (Machine.final provision .empty inputs) :=
  Machine.final_invariant (fun _ input inv => inv.handle input.2)
    ⟨nofun, rfl, List.nodup_nil⟩ inputs

/-! ### Authorizable members -/

/-- With one membership, that is the principal's. -/
theorem OrgLevelOnly.resolve_eq (inv : OrgLevelOnly db) {clerkUserId : String} {user : UserRow}
    {row : MembershipRow} (hUser : user ∈ db.users)
    (hExternal : user.externalAuthId = some clerkUserId) (hRow : row ∈ db.memberships)
    (level : isOrgLevel user.organizationId user.id row = true) :
    resolve db clerkUserId = some {
      userId := user.id
      organizationId := user.organizationId
      role := row.role
      actorKind := .human
      teamIds := []
      projectIds := [] } := by
  obtain ⟨member, inOrg, noTeam⟩ := isOrgLevel_iff.mp level
  have found := db.keys.users_external_auth_id_unique.find?_eq_some.mpr ⟨hUser, hExternal⟩
  have only : db.memberships.filter (fun other =>
      other.userId = user.id ∧ other.organizationId = user.organizationId) = [row] :=
    inv.single.filter_eq_singleton hRow (by simp [member, inOrg]) fun other _ kept =>
      congrArg some (of_decide_eq_true kept).1
  simp only [resolve, found, Option.bind_eq_bind, Option.bind_some, only]
  simp [noTeam, inv.noProject]

theorem syncMembership_authorizes (inv : OrgLevelOnly db)
    (ran : syncMembership draws db m = .ok after) : Authorizes after m := by
  have keeps := inv.syncMembership ran
  obtain ⟨orgId, inOrg, userId, withUser, hOrg, hUser, ran⟩ := syncMembership_eq_ok.mp ran
  have orgUpserted := upsertOrg_spec hOrg
  have userUpserted := upsertUser_spec hUser
  obtain ⟨row, hRow, level, hRole⟩ := upsertMembership_written ran
  have organizations : after.organizations = inOrg.organizations := by
    rw [upsertMembership_tables ran, userUpserted.tables]
  have users : after.users = withUser.users := by rw [upsertMembership_tables ran]
  refine ⟨_, keeps.resolve_eq (by rw [users]; exact userUpserted.written) rfl hRow level, hRole, ?_⟩
  exact ⟨_, by rw [organizations]; exact orgUpserted.written, rfl, rfl⟩

/-- The event is handled, and its member is authorizable afterwards. -/
def Provisions (draws : ProvisioningDraws) (db : TenancyDatabase) (event : ClerkEvent)
    (m : MembershipSync) : Prop :=
  (handle draws db event).1 = .ok true ∧ Authorizes (handle draws db event).2 m

/-- How a membership event whose payload reads as `m` is handled. -/
theorem handle_membershipSync {event : ClerkEvent} (kind : isMembershipSync event)
    (read : parseMembershipSync (.object event.data) = .ok m) :
    handle draws db event = match syncMembership draws db m with
      | .ok after => (.ok true, after)
      | .error error => (.error error, db) := by
  rw [handle, applyEvent_sync kind, read, parsed_ok, ok_bind]
  cases syncMembership draws db m <;> rfl

end Sync

/-- After every history, a membership event makes its user authorizable exactly when it is
admissible. -/
theorem handle_provisions_iff (inputs : List (ProvisioningDraws × ClerkEvent))
    (db : TenancyDatabase) (reached : db = Machine.final provision .empty inputs)
    (draws : ProvisioningDraws) (fresh : draws.Fresh db) (event : ClerkEvent)
    (kind : isMembershipSync event) (m : MembershipSync)
    (read : parseMembershipSync (.object event.data) = .ok m) :
    Provisions draws db event m ↔ Admissible db m := by
  have inv : OrgLevelOnly db := reached ▸ orgLevelOnly_final inputs
  rw [← syncMembership_ok_iff fresh, Provisions, handle_membershipSync kind read]
  cases ran : syncMembership draws db m with
  | error error => simp
  | ok after => simpa using syncMembership_authorizes inv ran

/-! ### A member of two organizations -/

/-- The payload of a membership event. -/
def membershipData (m : MembershipSync) (clerkRole : String) : List (String × JsValue) := [
  ("role", .string clerkRole),
  ("organization", .object [
    ("id", .string m.clerkOrgId),
    ("name", .string m.orgName),
    ("slug", .string m.orgSlug)]),
  ("public_user_data", .object [
    ("user_id", .string m.clerkUserId),
    ("identifier", .string m.email),
    ("first_name", .string m.displayName)])]

def joins (m : MembershipSync) : ClerkEvent :=
  ⟨"organizationMembership.created", membershipData m "org:admin"⟩

def acmeMember : MembershipSync where
  clerkOrgId := "org_acme"
  orgName := "Acme"
  orgSlug := "acme"
  clerkUserId := "user_jo"
  email := "jo@x.com"
  displayName := "Jo"
  role := .admin

def globexMember : MembershipSync :=
  { acmeMember with clerkOrgId := "org_globex", orgName := "Globex", orgSlug := "globex" }

def firstDraws : ProvisioningDraws := ⟨"org-1", "user-1", "membership-1"⟩

def secondDraws : ProvisioningDraws := ⟨"org-2", "user-2", "membership-2"⟩

/-- The tables after Jo joined Acme. -/
def acmeTables : TenancyDatabase :=
  Machine.final provision .empty [(firstDraws, joins acmeMember)]

theorem secondDraws_fresh : secondDraws.Fresh acmeTables :=
  ⟨by decide, by decide, by decide⟩

theorem handle_provisions_iff_acme :
    Provisions secondDraws acmeTables
      ⟨"organizationMembership.updated", membershipData acmeMember "org:member"⟩
      { acmeMember with role := .teamMember } :=
  (handle_provisions_iff [(firstDraws, joins acmeMember)] _ rfl secondDraws secondDraws_fresh _
    (.inr rfl) _ rfl).mpr ⟨by decide, by unfold SlugFree; decide, by decide, by decide⟩

/-- Jo joins Globex too: the event is refused, and the principal stays in Acme. -/
theorem handle_refuses_second_organization :
    acmeTables = Machine.final provision .empty [(firstDraws, joins acmeMember)] ∧
      secondDraws.Fresh acmeTables ∧
      parseMembershipSync (.object (joins globexMember).data) = .ok globexMember ∧
      (handle secondDraws acmeTables (joins globexMember)).1 = .error .statementRefused ∧
      ¬ Provisions secondDraws acmeTables (joins globexMember) globexMember := by
  have refused : (handle secondDraws acmeTables (joins globexMember)).1 =
      .error .statementRefused := by decide
  refine ⟨rfl, secondDraws_fresh, rfl, refused, fun provisions => ?_⟩
  rw [provisions.1] at refused
  cases refused

end Donna
