import Donna.ControlPlane.Membership

/-! Revocation: what the removal of a membership and the deletion of a user take away, and whether
events that arrive later give it back. -/

namespace Donna

open Js Tables

/-- The rows of everyone but one user are as they were. -/
structure OthersUnchanged (userId : String) (db after : TenancyDatabase) : Prop where
  organizations : after.organizations = db.organizations
  users : after.users = db.users
  teams : after.teams = db.teams
  projects : after.projects = db.projects
  projectMemberships : after.projectMemberships = db.projectMemberships
  memberships : after.memberships.filter (·.userId ≠ userId) =
    db.memberships.filter (·.userId ≠ userId)

section Statements

variable {draws : ProvisioningDraws} {db after : TenancyDatabase} {event : ClerkEvent}

/-- Rows of `memberships` may always go. -/
theorem delete_memberships_succeeds (db : TenancyDatabase) (keep : MembershipRow → Bool) :
    ∃ after, statement { db.toTenancyTables with memberships := db.memberships.filter keep } =
      .ok after :=
  statement_ok_iff.mpr
    ⟨db.keys.withMemberships (db.keys.memberships_pkey.filter keep)
        (db.keys.memberships_user_team_unique.filter keep),
      db.references.withMemberships fun row listed =>
        ⟨row, (List.mem_filter.mp listed).1, rfl, rfl, rfl⟩,
      db.texts.organizations, db.texts.users⟩

/-- The external id of a user can be stored. -/
theorem TenancyDatabase.storable_externalAuthId {user : UserRow} {externalId : String}
    (listed : user ∈ db.users) (hExternal : user.externalAuthId = some externalId) :
    Storable externalId :=
  db.texts.users user listed externalId
    (List.mem_append_right _ (Option.mem_toList.mpr hExternal))

theorem revokeUser_succeeds (db : TenancyDatabase) {clerkUserId : String}
    (storable : Storable clerkUserId) : ∃ after, revokeUser db clerkUserId = .ok after := by
  let revoked := updateWhere (·.externalAuthId = some clerkUserId)
    (fun row => { row with externalAuthId := none }) db.users
  have pkey : Unique (some ·.id) revoked := db.keys.users_pkey.updateWhere fun _ => rfl
  have emails : Unique (fun row => some (row.organizationId, row.email)) revoked :=
    db.keys.users_org_email_unique.updateWhere fun _ => rfl
  have single := db.keys.users_external_auth_id_unique.single
    (·.externalAuthId = some clerkUserId) clerkUserId (by simp)
  have external : Unique (·.externalAuthId) revoked :=
    (unique_updateWhere db.keys.users_external_auth_id_unique single).mpr nofun
  have organizations : Refers (some ·.organizationId) revoked (·.id) db.organizations :=
    db.references.users_organization_id_fk.updateWhere fun _ => rfl
  have ids : db.users.map (·.id) ⊆ revoked.map (·.id) := subset_map_updateWhere fun _ => rfl
  have pairs : db.users.map (fun user => (user.organizationId, user.id)) ⊆
      revoked.map fun user => (user.organizationId, user.id) :=
    subset_map_updateWhere fun _ => rfl
  have texts : ∀ row ∈ revoked, ∀ text ∈ row.texts, Storable text := by
    refine storable_updateWhere db.texts.users fun row text given => .inr ?_
    exact List.mem_append_left _ (by simpa [UserRow.texts] using given)
  obtain ⟨after, ran⟩ := statement_ok_iff.mpr ⟨db.keys.withUsers pkey emails external,
    db.references.withUsers organizations ids (db.references.memberships_org_user_fk.mono pairs)
      (db.references.project_memberships_org_user_fk.mono pairs), db.texts.organizations, texts⟩
  exact ⟨after, revokeUser_eq_ok.mpr ⟨storable, statement_eq_ok.mp ran⟩⟩

/-- The deletion of a user leaves none behind the subject. -/
theorem revokeUser_unknown {clerkUserId : String} (ran : revokeUser db clerkUserId = .ok after) :
    ∀ user ∈ after.users, user.externalAuthId ≠ some clerkUserId := by
  obtain ⟨-, tables⟩ := revokeUser_eq_ok.mp ran
  rw [tables]
  intro user listed
  obtain ⟨before, -, rfl⟩ := mem_updateWhere.mp listed
  split
  · simp
  · next unselected => simpa using unselected

theorem handle_removal {ref : MembershipRef} (kind : event.type = "organizationMembership.deleted")
    (read : parseMembershipRef (.object event.data) = .ok ref)
    (ran : removeMembership db ref.clerkOrgId ref.clerkUserId = .ok after) :
    handle draws db event = (.ok true, after) := by
  rw [handle, applyEvent_removal kind, read]
  simp only [parsed_ok, ok_bind, ran, pure_except]

theorem handle_deletion {clerkUserId : String} (kind : event.type = "user.deleted")
    (read : parseDeletedId (.object event.data) = .ok clerkUserId)
    (ran : revokeUser db clerkUserId = .ok after) : handle draws db event = (.ok true, after) := by
  rw [handle, applyEvent_deletion kind, read]
  simp only [parsed_ok, ok_bind, ran, pure_except]

/-- The users without access are those without a membership. -/
theorem resolve_eq_none_iff {user : UserRow} {subject : String} (listed : user ∈ db.users)
    (hExternal : user.externalAuthId = some subject) :
    resolve db subject = none ↔ ∀ row ∈ db.memberships, row.userId ≠ user.id := by
  have found := db.keys.users_external_auth_id_unique.find?_eq_some.mpr ⟨listed, hExternal⟩
  have own : db.memberships.filter (fun row =>
      row.userId = user.id ∧ row.organizationId = user.organizationId) = [] ↔
      ∀ row ∈ db.memberships, row.userId ≠ user.id := by
    rw [List.filter_eq_nil_iff]
    refine forall₂_congr fun row hRow => ?_
    by_cases hUser : row.userId = user.id
    · simp [hUser, db.membership_inOrg listed hRow hUser]
    · simp [hUser]
  rw [← own]
  simp only [resolve, found, Option.bind_eq_bind, Option.bind_some]
  cases db.memberships.filter _ with
  | nil => simp
  | cons first rest => simp

end Statements

/-! ### Removed memberships -/

/-- The removal of a membership takes the user's access away exactly when no row of a team is left
to fall back to. -/
theorem handle_removal_revokes_iff (db : TenancyDatabase) (draws : ProvisioningDraws)
    (event : ClerkEvent) (kind : event.type = "organizationMembership.deleted")
    (ref : MembershipRef) (read : parseMembershipRef (.object event.data) = .ok ref)
    (org : OrganizationRow) (hOrg : org ∈ db.organizations)
    (orgExternal : org.externalAuthId = some ref.clerkOrgId)
    (user : UserRow) (listedUser : user ∈ db.users)
    (userExternal : user.externalAuthId = some ref.clerkUserId)
    (inOrg : user.organizationId = org.id) :
    ((handle draws db event).1 = .ok true ∧
      resolve (handle draws db event).2 ref.clerkUserId = none ∧
      OthersUnchanged user.id db (handle draws db event).2) ↔
    ∀ row ∈ db.memberships, row.userId = user.id → row.teamId = none := by
  have orgId : orgIdByExternal db ref.clerkOrgId = some org.id :=
    orgIdByExternal_eq_some.mpr ⟨org, hOrg, orgExternal, rfl⟩
  have userId : userIdByExternal db ref.clerkUserId = some user.id :=
    userIdByExternal_eq_some.mpr ⟨user, listedUser, userExternal, rfl⟩
  obtain ⟨after, ran⟩ := delete_memberships_succeeds db fun row =>
    !isOrgLevel org.id user.id row
  have tables := statement_eq_ok.mp ran
  have removed : removeMembership db ref.clerkOrgId ref.clerkUserId = .ok after := by
    have storable : ∀ text ∈ [ref.clerkOrgId, ref.clerkUserId], Storable text := by
      refine List.forall_mem_cons.mpr ⟨?_, List.forall_mem_singleton.mpr ?_⟩
      · exact db.texts.organizations org hOrg _
          (List.mem_append_right _ (Option.mem_toList.mpr orgExternal))
      · exact db.storable_externalAuthId listedUser userExternal
    rw [removeMembership, textParameters_eq_ok.mpr storable, orgId, userId]
    exact ran
  rw [handle_removal kind read removed]
  have users : after.users = db.users := by rw [tables]
  rw [resolve_eq_none_iff (users ▸ listedUser) userExternal]
  have others : OthersUnchanged user.id db after := by
    refine ⟨by rw [tables], users, by rw [tables], by rw [tables], by rw [tables], ?_⟩
    rw [tables, List.filter_filter]
    refine List.filter_congr fun row _ => ?_
    by_cases own : row.userId = user.id <;> simp [own, isOrgLevel]
  have remaining : (∀ row ∈ after.memberships, row.userId ≠ user.id) ↔
      ∀ row ∈ db.memberships, row.userId = user.id → row.teamId = none := by
    rw [tables]
    constructor
    · intro gone row hRow hUser
      by_contra team
      refine gone row (List.mem_filter.mpr ⟨hRow, ?_⟩) hUser
      simp [isOrgLevel, team]
    · intro orgLevel row hRow hUser
      obtain ⟨listed, kept⟩ := List.mem_filter.mp hRow
      have here := (db.membership_inOrg listedUser listed hUser).trans inOrg
      have level : isOrgLevel org.id user.id row = true :=
        isOrgLevel_iff.mpr ⟨hUser, here, orgLevel row listed hUser⟩
      simp [level] at kept
  exact ⟨fun h => remaining.mp h.2.1, fun h => ⟨rfl, remaining.mpr h, others⟩⟩

/-- The event that Jo's membership of Acme is gone. -/
def leavesAcme : ClerkEvent := ⟨"organizationMembership.deleted", membershipData acmeMember ""⟩

def acmeRef : MembershipRef := ⟨"org_acme", "user_jo"⟩

theorem handle_removal_revokes_iff_acme :
    (handle secondDraws acmeTables leavesAcme).1 = .ok true ∧
      resolve (handle secondDraws acmeTables leavesAcme).2 "user_jo" = none ∧
      OthersUnchanged "user-1" acmeTables (handle secondDraws acmeTables leavesAcme).2 :=
  (handle_removal_revokes_iff acmeTables secondDraws leavesAcme rfl acmeRef rfl
    ⟨"org-1", "Acme", "acme", some "org_acme"⟩ (by decide) rfl
    ⟨"user-1", "org-1", "jo@x.com", "Jo", some "user_jo"⟩ (by decide) rfl rfl).mpr (by decide)

/-- Jo also leads a team. -/
def teamTables : TenancyDatabase where
  organizations := [⟨"org-1", "Acme", "acme", some "org_acme"⟩]
  users := [⟨"user-1", "org-1", "jo@x.com", "Jo", some "user_jo"⟩]
  teams := [⟨"team-1", "org-1"⟩]
  memberships := [
    ⟨"membership-1", "org-1", "user-1", none, .admin⟩,
    ⟨"membership-2", "org-1", "user-1", some "team-1", .teamLead⟩]
  keys := by decide
  references := by decide
  texts := by decide

/-- The organization-level row goes, and the resolver falls back to that of the team. -/
theorem handle_removal_keeps_team :
    (handle secondDraws teamTables leavesAcme).1 = .ok true ∧
      resolve (handle secondDraws teamTables leavesAcme).2 "user_jo" = some {
        userId := "user-1"
        organizationId := "org-1"
        role := .teamLead
        actorKind := .human
        teamIds := ["team-1"]
        projectIds := [] } := by
  decide

/-! ### Deleted users -/

/-- An event of a user or of a membership whose payload, where it can be read, names a subject. -/
inductive About (subject : String) (event : ClerkEvent) : Prop
  | sync (kind : isMembershipSync event)
      (names : ∀ m, parseMembershipSync (.object event.data) = .ok m → m.clerkUserId = subject)
  | removal (kind : event.type = "organizationMembership.deleted")
      (names : ∀ ref, parseMembershipRef (.object event.data) = .ok ref →
        ref.clerkUserId = subject)
  | update (kind : event.type = "user.created" ∨ event.type = "user.updated")
      (names : ∀ u, parseUserUpdate (.object event.data) = .ok u → u.clerkUserId = subject)
  | deletion (kind : event.type = "user.deleted")
      (names : ∀ clerkUserId, parseDeletedId (.object event.data) = .ok clerkUserId →
        clerkUserId = subject)

/-- An event that the tables take for a new membership. -/
def Readmits (db : TenancyDatabase) (event : ClerkEvent) : Prop :=
  isMembershipSync event ∧
    ∃ m, parseMembershipSync (.object event.data) = .ok m ∧ Admissible db m

section Redelivery

variable {draws : ProvisioningDraws} {db : TenancyDatabase} {event : ClerkEvent}
  {subject : String}

theorem statement_self : statement db.toTenancyTables = .ok db := statement_eq_ok.mpr rfl

/-- No row is behind the subject that the statement selects. -/
theorem updateUsers_unknown (unknown : ∀ user ∈ db.users, user.externalAuthId ≠ some subject)
    (set : UserRow → UserRow) :
    statement { db.toTenancyTables with
      users := updateWhere (·.externalAuthId = some subject) set db.users } = .ok db := by
  rw [updateWhere_eq_self (by simpa using unknown)]
  exact statement_self

/-- A removal that completes finds no user behind the subject. -/
theorem removeMembership_unknown (unknown : ∀ user ∈ db.users, user.externalAuthId ≠ some subject)
    {clerkOrgId : String} {after : TenancyDatabase}
    (ran : removeMembership db clerkOrgId subject = .ok after) : after = db := by
  obtain ⟨-, ran⟩ := textParameters_bind_eq_ok.mp ran
  rw [userIdByExternal_eq_none.mpr unknown] at ran
  cases found : orgIdByExternal db clerkOrgId <;> rw [found] at ran <;>
    exact (Except.ok.inj ran).symm

/-- About a subject that no user has, only an event that readmits it changes the tables. -/
theorem handle_about_unknown (unknown : ∀ user ∈ db.users, user.externalAuthId ≠ some subject)
    (fresh : draws.Fresh db) (about : About subject event) (refused : ¬ Readmits db event) :
    (handle draws db event).2 = db := by
  cases about with
  | sync kind names =>
    cases read : parseMembershipSync (.object event.data) with
    | error error =>
      rw [handle, applyEvent_sync kind, read]
      rfl
    | ok m =>
      rw [handle_membershipSync kind read]
      cases ran : syncMembership draws db m with
      | error error => rfl
      | ok after =>
        exact absurd ⟨kind, m, read, (syncMembership_ok_iff fresh).mp ⟨after, ran⟩⟩ refused
  | removal kind names =>
    rw [handle, applyEvent_removal kind]
    cases read : parseMembershipRef (.object event.data) with
    | error error => rfl
    | ok ref =>
      obtain rfl := names ref read
      rw [parsed_ok, ok_bind]
      cases ran : removeMembership db ref.clerkOrgId ref.clerkUserId with
      | error error => rfl
      | ok after => exact removeMembership_unknown unknown ran
  | update kind names =>
    rw [handle, applyEvent_update kind]
    cases read : parseUserUpdate (.object event.data) with
    | error error => rfl
    | ok u =>
      obtain rfl := names u read
      rw [parsed_ok, ok_bind]
      cases ran : updateUser db u with
      | error error => rfl
      | ok after =>
        obtain ⟨-, written⟩ := textParameters_bind_eq_ok.mp ran
        exact (Except.ok.inj ((updateUsers_unknown unknown _).symm.trans written)).symm
  | deletion kind names =>
    rw [handle, applyEvent_deletion kind]
    cases read : parseDeletedId (.object event.data) with
    | error error => rfl
    | ok clerkUserId =>
      obtain rfl := names clerkUserId read
      rw [parsed_ok, ok_bind]
      cases ran : revokeUser db clerkUserId with
      | error error => rfl
      | ok after =>
        obtain ⟨-, written⟩ := textParameters_bind_eq_ok.mp ran
        exact (Except.ok.inj ((updateUsers_unknown unknown _).symm.trans written)).symm

theorem About.sync_names (about : About subject event) (kind : isMembershipSync event)
    {m : MembershipSync} (read : parseMembershipSync (.object event.data) = .ok m) :
    m.clerkUserId = subject := by
  cases about with
  | sync _ names => exact names m read
  | removal other _ | deletion other _ =>
    rcases kind with hType | hType <;> simp [hType] at other
  | update other _ => rcases kind with hType | hType <;> simp [hType] at other

/-- An event that readmits a subject gives it access again. -/
theorem resolve_of_readmits (inv : OrgLevelOnly db) (fresh : draws.Fresh db)
    (about : About subject event) (readmits : Readmits db event) :
    resolve (handle draws db event).2 subject ≠ none := by
  obtain ⟨kind, m, read, admissible⟩ := readmits
  obtain ⟨after, ran⟩ := (syncMembership_ok_iff fresh).mpr admissible
  obtain ⟨principal, found, -⟩ := syncMembership_authorizes inv ran
  rw [handle_membershipSync kind read, ran, ← about.sync_names kind read, found]
  exact Option.some_ne_none principal

/-- While no event readmits the subject, the tables stay as the deletion left them. -/
theorem final_of_refused (unknown : ∀ user ∈ db.users, user.externalAuthId ≠ some subject)
    {later : List (ProvisioningDraws × ClerkEvent)}
    (about : ∀ input ∈ later, About subject input.2) (fresh : ∀ input ∈ later, input.1.Fresh db)
    (refused : ∀ input ∈ later, ¬ Readmits db input.2) :
    Machine.final provision db later = db := by
  induction later with
  | nil => rfl
  | cons input rest ih =>
    obtain ⟨aboutFirst, aboutRest⟩ := List.forall_mem_cons.mp about
    obtain ⟨freshFirst, freshRest⟩ := List.forall_mem_cons.mp fresh
    obtain ⟨refusedFirst, refusedRest⟩ := List.forall_mem_cons.mp refused
    rw [Machine.final, provision, handle_about_unknown unknown freshFirst aboutFirst refusedFirst]
    exact ih aboutRest freshRest refusedRest

/-- The first event that readmits the subject ends the revocation. -/
theorem refused_of_final (inv : OrgLevelOnly db)
    (unknown : ∀ user ∈ db.users, user.externalAuthId ≠ some subject)
    {later : List (ProvisioningDraws × ClerkEvent)}
    (about : ∀ input ∈ later, About subject input.2) (fresh : ∀ input ∈ later, input.1.Fresh db)
    (final : ∀ taken, taken <+: later →
      resolve (Machine.final provision db taken) subject = none) :
    ∀ input ∈ later, ¬ Readmits db input.2 := by
  induction later with
  | nil => nofun
  | cons input rest ih =>
    obtain ⟨aboutFirst, aboutRest⟩ := List.forall_mem_cons.mp about
    obtain ⟨freshFirst, freshRest⟩ := List.forall_mem_cons.mp fresh
    have refusedFirst : ¬ Readmits db input.2 := fun readmits =>
      resolve_of_readmits inv freshFirst aboutFirst readmits
        (final [input] (by simp))
    refine List.forall_mem_cons.mpr ⟨refusedFirst, ih aboutRest freshRest fun taken initial => ?_⟩
    have next := final (input :: taken) (List.cons_prefix_cons.mpr ⟨rfl, initial⟩)
    rwa [Machine.final, provision,
      handle_about_unknown unknown freshFirst aboutFirst refusedFirst] at next

end Redelivery

/-- Once a user is deleted, late events about it leave it without access as long as none readmits
it, and no longer. -/
theorem deletion_final_iff (history : List (ProvisioningDraws × ClerkEvent)) (db : TenancyDatabase)
    (reached : db = Machine.final provision .empty history) (draws : ProvisioningDraws)
    (deletion : ClerkEvent) (kind : deletion.type = "user.deleted") (subject : String)
    (read : parseDeletedId (.object deletion.data) = .ok subject)
    (after : TenancyDatabase) (deleted : after = (handle draws db deletion).2)
    (later : List (ProvisioningDraws × ClerkEvent))
    (about : ∀ input ∈ later, About subject input.2)
    (fresh : ∀ input ∈ later, input.1.Fresh after) :
    (∀ taken, taken <+: later → resolve (Machine.final provision after taken) subject = none) ↔
      ∀ input ∈ later, ¬ Readmits after input.2 := by
  have inv : OrgLevelOnly after := by
    rw [deleted, reached]
    exact (orgLevelOnly_final history).handle deletion
  have unknown : ∀ user ∈ after.users, user.externalAuthId ≠ some subject := by
    by_cases storable : Storable subject
    · obtain ⟨revoked, ran⟩ := revokeUser_succeeds db storable
      rw [deleted, handle_deletion kind read ran]
      exact revokeUser_unknown ran
    · exact fun user listed external => storable (after.storable_externalAuthId listed external)
  constructor
  · exact refused_of_final inv unknown about fresh
  · intro refused taken initial
    rw [final_of_refused unknown (fun input listed => about input (initial.subset listed))
      (fun input listed => fresh input (initial.subset listed))
      fun input listed => refused input (initial.subset listed)]
    exact resolve_eq_none_of_unknown unknown

def deletesJo : ClerkEvent := ⟨"user.deleted", [("id", .string "user_jo")]⟩

/-- The tables after Jo joined Acme and was deleted. -/
def deletedTables : TenancyDatabase := (handle secondDraws acmeTables deletesJo).2

theorem joins_acme_read :
    parseMembershipSync (.object (joins acmeMember).data) = .ok acmeMember := rfl

theorem joins_acme_about : About "user_jo" (joins acmeMember) :=
  .sync (.inl rfl) fun m read => by
    obtain rfl : acmeMember = m := Except.ok.inj (joins_acme_read.symm.trans read)
    rfl

/-- The membership event comes again: the email is still in its organization, and it is refused. -/
theorem joins_refused : ¬ Readmits deletedTables (joins acmeMember) := by
  rintro ⟨-, m, read, admissible⟩
  obtain rfl : acmeMember = m := Except.ok.inj (joins_acme_read.symm.trans read)
  exact absurd admissible.emailFree (by decide)

theorem deletion_final_iff_acme :
    resolve (Machine.final provision deletedTables [(secondDraws, joins acmeMember)]) "user_jo" =
      none :=
  (deletion_final_iff [(firstDraws, joins acmeMember)] acmeTables rfl secondDraws deletesJo rfl
    "user_jo" rfl deletedTables rfl [(secondDraws, joins acmeMember)]
    (List.forall_mem_singleton.mpr joins_acme_about)
    (List.forall_mem_singleton.mpr ⟨by decide, by decide, by decide⟩)).mpr
    (List.forall_mem_singleton.mpr joins_refused) _ (List.prefix_refl _)

/-- Jo changes the email address. -/
def updatesJo : ClerkEvent := ⟨"user.updated", [
  ("id", .string "user_jo"),
  ("email_addresses", .array [.object [
    ("id", .string "email-2"),
    ("email_address", .string "jo@y.com")]]),
  ("primary_email_address_id", .string "email-2")]⟩

/-- Jo joins, changes the email and is deleted; the event of the membership, delivered once more,
makes a new user behind the deleted subject. -/
theorem deletion_undone :
    resolve (Machine.final provision .empty [
      (firstDraws, joins acmeMember),
      (firstDraws, updatesJo),
      (firstDraws, deletesJo)]) "user_jo" = none ∧
    resolve (Machine.final provision .empty [
      (firstDraws, joins acmeMember),
      (firstDraws, updatesJo),
      (firstDraws, deletesJo),
      (secondDraws, joins acmeMember)]) "user_jo" = some {
        userId := "user-2"
        organizationId := "org-1"
        role := .admin
        actorKind := .human
        teamIds := []
        projectIds := [] } := by
  decide

end Donna
