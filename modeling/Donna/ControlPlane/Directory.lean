import Mathlib.Logic.Function.Basic
import Mathlib.Data.Set.Insert
import Mathlib.Data.List.Find
import Donna.ControlPlane.ProvisioningSessions
import Donna.ControlPlane.Revocation

/-! The identity provider's view of the tenancy tables: a directory that is keyed by the provider's
own ids and holds none of the random ones.  Every call that the service completes has the effect on
the tables that one update has on the directory, and the resolver answers from it. -/

namespace Donna

open Js Tables

/-- A user as the identity provider names it, and its role in the organization if it has one. -/
structure DirectoryUser where
  clerkOrgId : Option String
  email : String
  displayName : String
  role : Option Role
  deriving DecidableEq

@[ext]
structure Directory where
  /-- The name and the slug of each organization. -/
  organizations : String → Option (String × String)
  users : String → Option DirectoryUser
  /-- The organizations and emails of deleted users, which stay taken. -/
  former : Set (Option String × String)

namespace Directory

def empty : Directory := ⟨fun _ => none, fun _ => none, ∅⟩

/-- What a completed call makes of the directory. -/
def record (directory : Directory) : ProvisioningCall → Directory
  | .syncMembership m => { directory with
      organizations := Function.update directory.organizations m.clerkOrgId
        (some (m.orgName, m.orgSlug))
      users := Function.update directory.users m.clerkUserId
        (some ⟨some m.clerkOrgId, m.email, m.displayName, some m.role⟩) }
  | .removeMembership ref => { directory with
      users := Function.update directory.users ref.clerkUserId
        ((directory.users ref.clerkUserId).map fun user =>
          if user.clerkOrgId = some ref.clerkOrgId then { user with role := none } else user) }
  | .updateUser u => { directory with
      users := Function.update directory.users u.clerkUserId
        ((directory.users u.clerkUserId).map fun user =>
          { user with email := u.email, displayName := u.displayName }) }
  | .revokeUser clerkUserId => { directory with
      users := Function.update directory.users clerkUserId none
      former := directory.former ∪
        { held | ∃ user, directory.users clerkUserId = some user ∧
          held = (user.clerkOrgId, user.email) } }
  | .upsertOrganization o => { directory with
      organizations := Function.update directory.organizations o.clerkOrgId
        (some (o.name, o.slug)) }

/-- The organization and the role with which a subject has access. -/
def access (directory : Directory) (subject : String) : Option (Option String × Role) := do
  let user ← directory.users subject
  let role ← user.role
  pure (user.clerkOrgId, role)

end Directory

namespace TenancyDatabase

/-- The external id of the organization behind an id. -/
def clerkOrgOf (db : TenancyDatabase) (organizationId : String) : Option String :=
  (db.organizations.find? (·.id = organizationId)).bind (·.externalAuthId)

def directoryUser (db : TenancyDatabase) (user : UserRow) : DirectoryUser where
  clerkOrgId := db.clerkOrgOf user.organizationId
  email := user.email
  displayName := user.displayName
  role := (db.memberships.find? (·.userId = user.id)).map (·.role)

/-- The directory that the tables hold. -/
def directory (db : TenancyDatabase) : Directory where
  organizations clerkOrgId :=
    (db.organizations.find? (·.externalAuthId = some clerkOrgId)).map fun org =>
      (org.name, org.slug)
  users subject := (db.users.find? (·.externalAuthId = some subject)).map db.directoryUser
  former := { held | ∃ user ∈ db.users, user.externalAuthId = none ∧
    held = (db.clerkOrgOf user.organizationId, user.email) }

section Lookups

variable {db : TenancyDatabase} {organizationId clerkOrgId : String} {user : UserRow}
  {subject : String}

theorem clerkOrgOf_eq_some : db.clerkOrgOf organizationId = some clerkOrgId ↔
    LiesIn db organizationId clerkOrgId := by
  simp only [clerkOrgOf, Option.bind_eq_some_iff, LiesIn]
  refine exists_congr fun org => ?_
  rw [db.keys.organizations_pkey.find?_of_selects organizationId (by simp), decide_eq_true_eq,
    and_assoc]

theorem users_eq_some (listed : user ∈ db.users) (hExternal : user.externalAuthId = some subject) :
    db.directory.users subject = some (db.directoryUser user) := by
  have found := db.keys.users_external_auth_id_unique.find?_eq_some.mpr ⟨listed, hExternal⟩
  simp only [directory, found, Option.map_some]

theorem users_eq_none (unknown : ∀ user ∈ db.users, user.externalAuthId ≠ some subject) :
    db.directory.users subject = none := by
  simpa [directory] using unknown

theorem users_cases (db : TenancyDatabase) (subject : String) :
    (∃ user ∈ db.users, user.externalAuthId = some subject ∧
      db.directory.users subject = some (db.directoryUser user)) ∨
    ((∀ user ∈ db.users, user.externalAuthId ≠ some subject) ∧
      db.directory.users subject = none) := by
  by_cases unknown : ∀ user ∈ db.users, user.externalAuthId ≠ some subject
  · exact .inr ⟨unknown, users_eq_none unknown⟩
  · push Not at unknown
    obtain ⟨user, listed, hExternal⟩ := unknown
    exact .inl ⟨user, listed, hExternal, users_eq_some listed hExternal⟩

end Lookups

end TenancyDatabase

section Calls

open TenancyDatabase

variable {draws : ProvisioningDraws} {db after : TenancyDatabase}
  {externalId orgId userId name slug email displayName clerkOrgId subject : String} {role : Role}

/-! ### Organizations -/

/-- The organizations that were there are known by the same external ids. -/
theorem upsertOrg_clerkOrgOf (ran : upsertOrg draws db externalId name slug = .ok (orgId, after))
    {organizationId : String} (listed : organizationId ∈ db.organizations.map (·.id)) :
    after.clerkOrgOf organizationId = db.clerkOrgOf organizationId := by
  rcases upsertOrg_cases ran with ⟨org, -, -, -, tables⟩ | ⟨-, tables⟩
  · simp only [clerkOrgOf, tables]
    rw [find?_updateWhere (by exact fun _ => rfl), Option.bind_map]
    refine Option.bind_congr fun row _ => ?_
    dsimp only [Function.comp_apply]
    split <;> rfl
  · obtain ⟨org, hOrg, rfl⟩ := List.mem_map.mp listed
    have found : db.organizations.find? (·.id = org.id) = some org :=
      (db.keys.organizations_pkey.find?_of_selects org.id (by simp)).mpr ⟨hOrg, by simp⟩
    simp only [clerkOrgOf, tables, List.find?_append, found, Option.some_or]

/-- An upsert of an organization writes its entry of the directory. -/
theorem upsertOrg_directory (ran : upsertOrg draws db externalId name slug = .ok (orgId, after)) :
    after.directory = { db.directory with
      organizations := Function.update db.directory.organizations externalId
        (some (name, slug)) } := by
  have upserted := upsertOrg_spec ran
  have users : after.users = db.users := by rw [upserted.tables]
  have memberships : after.memberships = db.memberships := by rw [upserted.tables]
  have behind : ∀ user ∈ db.users,
      after.clerkOrgOf user.organizationId = db.clerkOrgOf user.organizationId :=
    fun user listed => upsertOrg_clerkOrgOf ran
      (refers_iff.mp db.references.users_organization_id_fk user listed _ rfl)
  simp only [TenancyDatabase.directory, Directory.mk.injEq]
  refine ⟨?_, ?_, ?_⟩
  · funext clerkOrgId
    by_cases same : clerkOrgId = externalId
    · subst same
      have found := after.keys.organizations_external_auth_id_unique.find?_eq_some.mpr
        ⟨upserted.written, rfl⟩
      rw [Function.update_self, found]
      rfl
    · rw [Function.update_of_ne same]
      rcases upsertOrg_cases ran with ⟨org, listed, hExternal, hId, tables⟩ | ⟨-, tables⟩
      · rw [tables, find?_updateWhere (by exact fun _ => rfl), Option.map_map]
        refine Option.map_congr fun row found => ?_
        have asked := List.find?_some found
        have other : row.id ≠ orgId := fun hRow => same (by
          rw [db.keys.organizations_pkey.eq (List.mem_of_find?_eq_some found) listed
            (congrArg some hRow) (congrArg some hId), hExternal] at asked
          simpa using (of_decide_eq_true asked).symm)
        simp [other]
      · rw [tables, List.find?_append]
        simp [Ne.symm same]
  · funext subject
    rw [users]
    refine Option.map_congr fun user found => ?_
    simp only [directoryUser, memberships, behind user (List.mem_of_find?_eq_some found)]
  · ext held
    rw [users]
    refine exists_congr fun user => and_congr_right fun listed => ?_
    rw [behind user listed]

/-! ### Users -/

/-- Under another external id, or under none, a row is in the tables before the upsert exactly when
it is in those after it. -/
theorem upsertUser_others
    (ran : upsertUser draws db subject orgId email displayName = .ok (userId, after))
    {user : UserRow} (other : user.externalAuthId ≠ some subject) :
    user ∈ after.users ↔ user ∈ db.users := by
  rcases upsertUser_cases ran with ⟨row, listed, hExternal, hId, tables⟩ | ⟨-, tables⟩
  · rw [tables, mem_updateWhere]
    constructor
    · rintro ⟨before, hBefore, rfl⟩
      split at other
      · next same =>
        rw [db.keys.users_pkey.eq hBefore listed (congrArg some (of_decide_eq_true same))
          (congrArg some hId)] at other
        exact absurd hExternal other
      · next different =>
        rw [if_neg different]
        exact hBefore
    · intro hUser
      refine ⟨user, hUser, if_neg fun same => other ?_⟩
      rw [db.keys.users_pkey.eq hUser listed (congrArg some (of_decide_eq_true same))
        (congrArg some hId), hExternal]
  · rw [tables, List.mem_append, List.mem_singleton, or_iff_left]
    rintro rfl
    exact other rfl

theorem clerkOrgOf_congr (same : after.organizations = db.organizations) :
    after.clerkOrgOf = db.clerkOrgOf := by
  funext organizationId
  simp only [clerkOrgOf, same]

theorem directory_organizations_congr (same : after.organizations = db.organizations) :
    after.directory.organizations = db.directory.organizations := by
  funext clerkOrgId
  simp only [TenancyDatabase.directory, same]

theorem directory_former_congr (behind : after.clerkOrgOf = db.clerkOrgOf)
    (same : ∀ user, user.externalAuthId = none → (user ∈ after.users ↔ user ∈ db.users)) :
    after.directory.former = db.directory.former := by
  ext held
  refine exists_congr fun user => ?_
  rw [behind]
  by_cases hExternal : user.externalAuthId = none
  · rw [same user hExternal]
  · simp [hExternal]

/-- What the directory shows of a table of users. -/
theorem directory_users_congr {subject : String}
    (same : ∀ user, user.externalAuthId = some subject → (user ∈ after.users ↔ user ∈ db.users))
    (shown : ∀ user ∈ db.users, user.externalAuthId = some subject →
      after.directoryUser user = db.directoryUser user) :
    after.directory.users subject = db.directory.users subject := by
  rcases db.users_cases subject with ⟨user, listed, hExternal, found⟩ | ⟨unknown, missing⟩
  · rw [found, users_eq_some ((same user hExternal).mpr listed) hExternal,
      shown user listed hExternal]
  · rw [missing]
    exact users_eq_none fun user listed hExternal =>
      unknown user ((same user hExternal).mp listed) hExternal

/-- An upsert of a user writes its entry of the directory, and leaves the role that it has. -/
theorem upsertUser_directory
    (ran : upsertUser draws db subject orgId email displayName = .ok (userId, after)) :
    after.directory = { db.directory with
      users := Function.update db.directory.users subject
        (some ⟨db.clerkOrgOf orgId, email, displayName,
          (db.directory.users subject).bind (·.role)⟩) } := by
  have upserted := upsertUser_spec ran
  have organizations : after.organizations = db.organizations := by rw [upserted.tables]
  have memberships : after.memberships = db.memberships := by rw [upserted.tables]
  have behind : after.clerkOrgOf = db.clerkOrgOf := clerkOrgOf_congr organizations
  have shown : after.directoryUser = db.directoryUser := by
    funext user
    simp only [directoryUser, behind, memberships]
  have hRole : (db.memberships.find? (·.userId = userId)).map (·.role) =
      (db.directory.users subject).bind (·.role) := by
    rcases upsertUser_cases ran with ⟨user, listed, hExternal, rfl, -⟩ | ⟨unknown, tables⟩
    · rw [users_eq_some listed hExternal]
      rfl
    · have unique := after.keys.users_pkey
      rw [tables] at unique
      have fresh := (unique_insert.mp unique).2 userId rfl
      rw [users_eq_none unknown, Option.bind_none, Option.map_eq_none_iff, List.find?_eq_none]
      intro row listed isUser
      obtain ⟨user, hUser, hId⟩ := List.mem_map.mp
        (refers_iff.mp db.references.memberships_user_id_fk row listed _ rfl)
      exact fresh user hUser (congrArg some (hId.trans (of_decide_eq_true isUser)))
  have others : ∀ other, other ≠ subject →
      after.directory.users other = db.directory.users other := fun other different =>
    directory_users_congr
      (fun user hExternal => upsertUser_others ran (by simp [hExternal, different]))
      fun user _ _ => congrFun shown user
  have former : after.directory.former = db.directory.former :=
    directory_former_congr behind fun user hExternal => upsertUser_others ran (by simp [hExternal])
  have written : after.directory.users subject = some ⟨db.clerkOrgOf orgId, email, displayName,
      (db.directory.users subject).bind (·.role)⟩ := by
    rw [users_eq_some upserted.written rfl, shown, directoryUser, hRole]
  exact Directory.ext (directory_organizations_congr organizations)
    (Function.eq_update_iff.mpr ⟨written, others⟩) former

theorem updateUser_directory {u : UserUpdate} (ran : updateUser db u = .ok after) :
    after.directory = db.directory.record (.updateUser u) := by
  obtain ⟨-, tables⟩ := updateUser_eq_ok.mp ran
  have organizations : after.organizations = db.organizations := by rw [tables]
  have behind : after.clerkOrgOf = db.clerkOrgOf := clerkOrgOf_congr organizations
  have others : ∀ user, user.externalAuthId ≠ some u.clerkUserId →
      (user ∈ after.users ↔ user ∈ db.users) := by
    intro user other
    rw [tables, mem_updateWhere]
    constructor
    · rintro ⟨before, hBefore, rfl⟩
      split at other
      · next same => exact absurd (of_decide_eq_true same) other
      · next different =>
        rw [if_neg different]
        exact hBefore
    · intro listed
      exact ⟨user, listed, if_neg (by simpa using other)⟩
  refine Directory.ext (directory_organizations_congr organizations)
    (Function.eq_update_iff.mpr ⟨?_, fun other different => ?_⟩)
    (directory_former_congr behind fun user hExternal => others user (by simp [hExternal]))
  · rcases db.users_cases u.clerkUserId with ⟨user, listed, hExternal, found⟩ | ⟨unknown, missing⟩
    · have written : { user with email := u.email, displayName := u.displayName } ∈
          after.users := by
        rw [tables]
        exact mem_updateWhere.mpr ⟨user, listed, if_pos (by simp [hExternal])⟩
      rw [found, users_eq_some written hExternal]
      simp only [directoryUser, behind, tables, Option.map_some]
    · rw [missing]
      refine users_eq_none fun user listed hExternal => ?_
      rw [tables, updateWhere_eq_self (by simpa using unknown)] at listed
      exact unknown user listed hExternal
  · refine directory_users_congr (fun user hExternal => ?_) fun user _ _ => ?_
    · exact others user (by simp [hExternal, different])
    · simp only [directoryUser, behind, tables]

/-- The row of a revoked user stays, and with it the email in the organization. -/
theorem revokeUser_directory (ran : revokeUser db subject = .ok after) :
    after.directory = db.directory.record (.revokeUser subject) := by
  obtain ⟨-, tables⟩ := revokeUser_eq_ok.mp ran
  have organizations : after.organizations = db.organizations := by rw [tables]
  have behind : after.clerkOrgOf = db.clerkOrgOf := clerkOrgOf_congr organizations
  refine Directory.ext (directory_organizations_congr organizations)
    (Function.eq_update_iff.mpr ⟨?_, fun other different => ?_⟩) ?_
  · exact users_eq_none (revokeUser_unknown ran)
  · refine directory_users_congr (fun user hExternal => ?_) fun user _ _ => ?_
    · rw [tables, mem_updateWhere]
      constructor
      · rintro ⟨before, hBefore, rfl⟩
        split at hExternal
        · cases hExternal
        · next different' =>
          rw [if_neg different']
          exact hBefore
      · intro listed
        exact ⟨user, listed, if_neg (by simp [hExternal, different])⟩
    · simp only [directoryUser, behind, tables]
  · ext held
    simp only [TenancyDatabase.directory, Directory.record, Set.mem_ofPred_eq, Set.mem_union,
      behind]
    constructor
    · rintro ⟨user, listed, hExternal, rfl⟩
      rw [tables, mem_updateWhere] at listed
      obtain ⟨before, hBefore, rfl⟩ := listed
      split at hExternal
      · next same =>
        rw [if_pos same]
        exact .inr ⟨db.directoryUser before,
          users_eq_some hBefore (of_decide_eq_true same), rfl⟩
      · next different =>
        rw [if_neg different]
        exact .inl ⟨before, hBefore, hExternal, rfl⟩
    · rintro (⟨user, listed, hExternal, rfl⟩ | ⟨entry, hEntry, rfl⟩)
      · refine ⟨user, ?_, hExternal, rfl⟩
        rw [tables]
        exact mem_updateWhere_of_not listed (by simp [hExternal])
      · obtain ⟨user, found, rfl⟩ := Option.map_eq_some_iff.mp hEntry
        refine ⟨{ user with externalAuthId := none }, ?_, rfl, rfl⟩
        have hExternal := List.find?_some found
        rw [tables]
        exact mem_updateWhere.mpr ⟨user, List.mem_of_find?_eq_some found, if_pos hExternal⟩

/-! ### Memberships -/

/-- Where only the memberships change, the directory changes in the roles of the users whose rows
do. -/
theorem directory_of_memberships {entry : Option DirectoryUser}
    (tables : after.toTenancyTables = { db.toTenancyTables with memberships := after.memberships })
    (written : after.directory.users subject = entry)
    (others : ∀ user ∈ db.users, user.externalAuthId ≠ some subject →
      after.memberships.find? (·.userId = user.id) = db.memberships.find? (·.userId = user.id)) :
    after.directory = { db.directory with
      users := Function.update db.directory.users subject entry } := by
  have organizations : after.organizations = db.organizations := by rw [tables]
  have users : after.users = db.users := by rw [tables]
  have behind : after.clerkOrgOf = db.clerkOrgOf := clerkOrgOf_congr organizations
  refine Directory.ext (directory_organizations_congr organizations)
    (Function.eq_update_iff.mpr ⟨written, fun other different => ?_⟩)
    (directory_former_congr behind fun user _ => by rw [users])
  refine directory_users_congr (fun user _ => by rw [users]) fun user listed hExternal => ?_
  simp only [directoryUser, behind, others user listed (by simp [hExternal, different])]

/-- An upsert of a membership writes the role of its user. -/
theorem upsertMembership_directory (inv : OrgLevelOnly db) {user : UserRow}
    (listed : user ∈ db.users) (hExternal : user.externalAuthId = some subject)
    (ran : upsertMembership draws db user.organizationId user.id role = .ok after) :
    after.directory = { db.directory with
      users := Function.update db.directory.users subject
        (some { db.directoryUser user with role := some role }) } := by
  have tables := upsertMembership_tables ran
  have organizations : after.organizations = db.organizations := by rw [tables]
  have users : after.users = db.users := by rw [tables]
  have single := (inv.upsertMembership ran).single
  refine directory_of_memberships tables ?_ fun other hOther different => ?_
  · obtain ⟨row, hRow, level, hRole⟩ := upsertMembership_written ran
    have found : after.memberships.find? (·.userId = user.id) = some row :=
      (single.find?_of_selects user.id (by simp)).mpr
        ⟨hRow, by simp [(isOrgLevel_iff.mp level).1]⟩
    rw [users_eq_some (users ▸ listed) hExternal]
    simp only [directoryUser, clerkOrgOf, organizations, found, Option.map_some, hRole]
  · have apart : other.id ≠ user.id := fun same => different (by
      rw [db.keys.users_pkey.eq hOther listed (congrArg some same) rfl, hExternal])
    rcases upsertMembership_cases ran with ⟨found, hFound, level, written⟩ | ⟨-, written⟩
    · rw [written, find?_updateWhere (by exact fun _ => rfl)]
      cases asked : db.memberships.find? (·.userId = other.id) with
      | none => rfl
      | some row =>
        refine congrArg some (if_neg fun same => apart ?_)
        have isUser := List.find?_some asked
        rw [db.keys.memberships_pkey.eq (List.mem_of_find?_eq_some asked) hFound
          (congrArg some (of_decide_eq_true same)) rfl, (isOrgLevel_iff.mp level).1] at isUser
        exact (of_decide_eq_true isUser).symm
    · rw [written, List.find?_append]
      simp [Ne.symm apart]

/-- The membership of a user that a removal leaves. -/
theorem find?_removed (inv : OrgLevelOnly db) {user : UserRow} (listed : user ∈ db.users) :
    (db.memberships.filter fun row => !isOrgLevel orgId userId row).find? (·.userId = user.id) =
      if user.id = userId ∧ user.organizationId = orgId then none
      else db.memberships.find? (·.userId = user.id) := by
  split
  · next isMember =>
    refine List.find?_eq_none.mpr fun row kept isUser => ?_
    obtain ⟨hRow, remains⟩ := List.mem_filter.mp kept
    have hUser := of_decide_eq_true isUser
    have level : isOrgLevel orgId userId row = true := isOrgLevel_iff.mpr
      ⟨hUser.trans isMember.1, (db.membership_inOrg listed hRow hUser).trans isMember.2,
        inv.noTeam row hRow⟩
    simp [level] at remains
  · next other =>
    rw [List.find?_filter]
    refine List.find?_congr fun row hRow => ?_
    by_cases hUser : row.userId = user.id
    · have remains : isOrgLevel orgId userId row = false := by
        rw [Bool.eq_false_iff]
        intro level
        obtain ⟨isUser, inOrg, -⟩ := isOrgLevel_iff.mp level
        exact other ⟨hUser.symm.trans isUser,
          (db.membership_inOrg listed hRow hUser).symm.trans inOrg⟩
      simp [hUser, remains]
    · simp [hUser]

/-- A removal clears the role of a user of the organization, and of nobody else. -/
theorem removeMembership_directory (inv : OrgLevelOnly db) {ref : MembershipRef}
    (ran : removeMembership db ref.clerkOrgId ref.clerkUserId = .ok after) :
    after.directory = db.directory.record (.removeMembership ref) := by
  rcases db.users_cases ref.clerkUserId with ⟨user, listed, hExternal, found⟩ | ⟨unknown, missing⟩
  · have byUser : userIdByExternal db ref.clerkUserId = some user.id :=
      userIdByExternal_eq_some.mpr ⟨user, listed, hExternal, rfl⟩
    by_cases known : ∃ org ∈ db.organizations, org.externalAuthId = some ref.clerkOrgId
    · obtain ⟨org, hOrg, orgExternal⟩ := known
      obtain ⟨-, ran⟩ := textParameters_bind_eq_ok.mp ran
      rw [byUser, orgIdByExternal_eq_some.mpr ⟨org, hOrg, orgExternal, rfl⟩] at ran
      have written := statement_eq_ok.mp ran
      have memberships : after.memberships =
          db.memberships.filter fun row => !isOrgLevel org.id user.id row := by rw [written]
      have organizations : after.organizations = db.organizations := by rw [written]
      have users : after.users = db.users := by rw [written]
      have inOrg : user.organizationId = org.id ↔
          db.clerkOrgOf user.organizationId = some ref.clerkOrgId := by
        rw [clerkOrgOf_eq_some]
        constructor
        · intro same
          exact ⟨org, hOrg, same.symm, orgExternal⟩
        · rintro ⟨other, hOther, same, otherExternal⟩
          rw [← same, db.keys.organizations_external_auth_id_unique.eq hOther hOrg otherExternal
            orgExternal]
      refine directory_of_memberships (by rw [written]) ?_ fun other hOther different => ?_
      · rw [found, users_eq_some (users ▸ listed) hExternal, Option.map_some, directoryUser,
          memberships, find?_removed inv listed, clerkOrgOf_congr organizations]
        simp only [true_and, inOrg, directoryUser]
        by_cases here : db.clerkOrgOf user.organizationId = some ref.clerkOrgId
        · simp only [here, if_true, Option.map_none]
        · simp only [here, if_false]
      · have apart : other.id ≠ user.id := fun same => different (by
          rw [db.keys.users_pkey.eq hOther listed (congrArg some same) rfl, hExternal])
        rw [memberships, find?_removed inv hOther, if_neg fun isMember => apart isMember.1]
    · obtain ⟨-, kept⟩ := textParameters_bind_eq_ok.mp ran
      rw [orgIdByExternal_eq_none.mpr (by simpa using known)] at kept
      obtain rfl : db = after := Except.ok.inj kept
      have outside : db.clerkOrgOf user.organizationId ≠ some ref.clerkOrgId := by
        intro here
        obtain ⟨org, hOrg, -, hExternal⟩ := clerkOrgOf_eq_some.mp here
        exact known ⟨org, hOrg, hExternal⟩
      refine Directory.ext rfl ?_ rfl
      simp only [Directory.record, found, Option.map_some, directoryUser, outside, if_false]
      exact (Function.update_eq_self_iff.mpr found.symm).symm
  · obtain rfl : after = db := removeMembership_unknown unknown ran
    refine Directory.ext rfl ?_ rfl
    rw [Directory.record, missing]
    exact (Function.update_eq_self_iff.mpr missing.symm).symm

theorem syncMembership_directory (inv : OrgLevelOnly db) {m : MembershipSync}
    (ran : syncMembership draws db m = .ok after) :
    after.directory = db.directory.record (.syncMembership m) := by
  obtain ⟨orgId, inOrg, userId, withUser, hOrg, hUser, ran⟩ := syncMembership_eq_ok.mp ran
  have orgUpserted := upsertOrg_spec hOrg
  have userUpserted := upsertUser_spec hUser
  have withUserOnly : OrgLevelOnly withUser := inv.of_memberships
    (by rw [userUpserted.tables, orgUpserted.tables])
    (by rw [userUpserted.tables, orgUpserted.tables])
  have behind : withUser.clerkOrgOf orgId = some m.clerkOrgId :=
    clerkOrgOf_eq_some.mpr ⟨_, by rw [userUpserted.tables]; exact orgUpserted.written, rfl, rfl⟩
  rw [upsertMembership_directory withUserOnly userUpserted.written rfl ran,
    upsertUser_directory hUser, upsertOrg_directory hOrg]
  simp only [Function.update_idem, directoryUser, behind]
  rfl

/-- A call that completes does to the directory what the tables show of it. -/
theorem ProvisioningCall.run_directory (inv : OrgLevelOnly db) {call : ProvisioningCall}
    (ran : call.run draws db = .ok after) : after.directory = db.directory.record call := by
  cases call with
  | syncMembership m => exact syncMembership_directory inv ran
  | removeMembership ref => exact removeMembership_directory inv ran
  | updateUser u => exact updateUser_directory ran
  | revokeUser clerkUserId => exact revokeUser_directory ran
  | upsertOrganization o =>
    obtain ⟨orgId, hOrg⟩ := upsertOrganization_eq_ok.mp ran
    exact upsertOrg_directory hOrg

/-! ### Access -/

/-- What a principal is to the identity provider: its organization, its role, and the teams and
projects that it is in. -/
def TenancyDatabase.provided (db : TenancyDatabase) (principal : PrincipalContext) :
    Option String × Role × List String × List String :=
  (db.clerkOrgOf principal.organizationId, principal.role, principal.teamIds, principal.projectIds)

/-- The resolver answers from the directory. -/
theorem OrgLevelOnly.resolve_provided (inv : OrgLevelOnly db) (subject : String) :
    (resolve db subject).map db.provided =
      (db.directory.access subject).map fun access => (access.1, access.2, [], []) := by
  rcases db.users_cases subject with ⟨user, listed, hExternal, found⟩ | ⟨unknown, missing⟩
  · simp only [Directory.access, found, Option.bind_eq_bind, Option.bind_some, directoryUser]
    cases asked : db.memberships.find? (·.userId = user.id) with
    | none =>
      have gone : resolve db subject = none := (resolve_eq_none_iff listed hExternal).mpr
        fun row hRow => by simpa using List.find?_eq_none.mp asked row hRow
      simp [gone]
    | some row =>
      have hRow := List.mem_of_find?_eq_some asked
      have isUser := List.find?_some asked
      have hUser := of_decide_eq_true isUser
      have level : isOrgLevel user.organizationId user.id row = true := isOrgLevel_iff.mpr
        ⟨hUser, db.membership_inOrg listed hRow hUser, inv.noTeam row hRow⟩
      rw [inv.resolve_eq listed hExternal hRow level]
      rfl
  · rw [resolve_eq_none_of_unknown unknown, Directory.access, missing]
    rfl

end Calls

end Donna
