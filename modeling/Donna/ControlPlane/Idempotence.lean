import Donna.ControlPlane.ProvisioningSessions
import Donna.ControlPlane.Revocation

/-! Events delivered twice.  Each upsert finds by its key the row that it wrote, and what it writes
is there already; what a deletion or a revocation selects is gone after the first delivery.  An
event that is refused leaves the tables alone, and the random ids of a second attempt do not change
what the database refuses. -/

namespace Donna

open Js Tables

/-- The organization and user of which a row is the organization-level membership. -/
def orgLevelKey (row : MembershipRow) : Option (String × String) :=
  if row.teamId = none then some (row.organizationId, row.userId) else none

section Written

variable {draws : ProvisioningDraws} {db after : TenancyDatabase}
  {externalId orgId userId name slug email displayName : String} {role : Role}

theorem orgLevelKey_eq_some {row : MembershipRow} :
    orgLevelKey row = some (orgId, userId) ↔ isOrgLevel orgId userId row = true := by
  rw [orgLevelKey, Option.ite_none_right_eq_some, isOrgLevel_iff, Option.some.injEq,
    Prod.mk.injEq]
  tauto

/-! ### What was written is found -/

/-- An upsert of an organization that is there as it should be changes nothing. -/
theorem upsertOrg_of_written
    (written : ⟨orgId, name, slug, some externalId⟩ ∈ db.organizations) :
    upsertOrg draws db externalId name slug = .ok (orgId, db) := by
  have found : orgIdByExternal db externalId = some orgId :=
    orgIdByExternal_eq_some.mpr ⟨_, written, rfl, rfl⟩
  have kept : updateWhere (·.id = orgId) (fun row => { row with name := name, slug := slug })
      db.organizations = db.organizations := by
    refine updateWhere_fixed fun row listed isSelected => ?_
    rw [db.keys.organizations_pkey.eq listed written
      (congrArg some (of_decide_eq_true isSelected)) rfl]
  have same : statement { db.toTenancyTables with organizations := db.organizations } = .ok db :=
    statement_self
  have storable := inserted_org_texts.mp (db.texts.organizations _ written)
  simp only [upsertOrg, textParameters_eq_ok.mpr storable, found, kept, same, ok_bind, pure_except]

theorem upsertUser_of_written
    (written : ⟨userId, orgId, email, displayName, some externalId⟩ ∈ db.users) :
    upsertUser draws db externalId orgId email displayName = .ok (userId, db) := by
  have found : userIdByExternal db externalId = some userId :=
    userIdByExternal_eq_some.mpr ⟨_, written, rfl, rfl⟩
  have kept : updateWhere (·.id = userId) (fun row => { row with
      organizationId := orgId
      email := email
      displayName := displayName }) db.users = db.users := by
    refine updateWhere_fixed fun row listed isSelected => ?_
    rw [db.keys.users_pkey.eq listed written (congrArg some (of_decide_eq_true isSelected)) rfl]
  have same : statement { db.toTenancyTables with users := db.users } = .ok db := statement_self
  have storable := inserted_user_texts.mp (db.texts.users _ written)
  simp only [upsertUser, textParameters_eq_ok.mpr storable, found, kept, same, ok_bind, pure_except]

/-- Of several organization-level rows of one pair, the query could return another than the one
that has the role. -/
theorem upsertMembership_of_written (single : Unique orgLevelKey db.memberships)
    {row : MembershipRow} (written : row ∈ db.memberships)
    (level : isOrgLevel orgId userId row = true) :
    upsertMembership draws db orgId userId row.role = .ok db := by
  have found : db.memberships.find? (isOrgLevel orgId userId) = some row :=
    (single.find?_of_selects (orgId, userId) fun _ => orgLevelKey_eq_some.mpr).mpr
      ⟨written, level⟩
  have kept : updateWhere (·.id = row.id) (fun other => { other with role := row.role })
      db.memberships = db.memberships := by
    refine updateWhere_fixed fun other listed isSelected => ?_
    rw [db.keys.memberships_pkey.eq listed written
      (congrArg some (of_decide_eq_true isSelected)) rfl]
  simp only [upsertMembership, found, kept]
  exact statement_self

/-! ### One organization-level membership -/

theorem upsertMembership_single (single : Unique orgLevelKey db.memberships)
    (ran : upsertMembership draws db orgId userId role = .ok after) :
    Unique orgLevelKey after.memberships := by
  rcases upsertMembership_cases ran with ⟨found, -, -, tables⟩ | ⟨missing, tables⟩
  · rw [tables]
    exact single.updateWhere fun _ => rfl
  · rw [tables]
    refine unique_insert.mpr ⟨single, ?_⟩
    rintro k hKey other listed hOther
    obtain rfl : (orgId, userId) = k := by simpa [orgLevelKey] using hKey
    have level := missing other listed
    rw [orgLevelKey_eq_some.mp hOther] at level
    cases level

theorem syncMembership_single {m : MembershipSync} (single : Unique orgLevelKey db.memberships)
    (ran : syncMembership draws db m = .ok after) : Unique orgLevelKey after.memberships := by
  obtain ⟨orgId, inOrg, userId, withUser, hOrg, hUser, ran⟩ := syncMembership_eq_ok.mp ran
  have memberships : withUser.memberships = db.memberships := by
    rw [(upsertUser_spec hUser).tables, (upsertOrg_spec hOrg).tables]
  exact upsertMembership_single (memberships ▸ single) ran

end Written

/-! ### The second delivery of an event that was applied -/

section Again

variable {draws draws' : ProvisioningDraws} {db after : TenancyDatabase} {event : ClerkEvent}

/-- The organization, the user and the membership are there after the first sync. -/
theorem syncMembership_again {m : MembershipSync} (single : Unique orgLevelKey db.memberships)
    (ran : syncMembership draws db m = .ok after) : syncMembership draws' after m = .ok after := by
  have singleAfter := syncMembership_single single ran
  obtain ⟨orgId, inOrg, userId, withUser, hOrg, hUser, ran⟩ := syncMembership_eq_ok.mp ran
  have userUpserted := upsertUser_spec hUser
  have organizations : after.organizations = inOrg.organizations := by
    rw [upsertMembership_tables ran, userUpserted.tables]
  have users : after.users = withUser.users := by rw [upsertMembership_tables ran]
  obtain ⟨row, listed, level, hRole⟩ := upsertMembership_written ran
  refine syncMembership_eq_ok.mpr ⟨orgId, after, userId, after, ?_, ?_, ?_⟩
  · exact upsertOrg_of_written (organizations ▸ (upsertOrg_spec hOrg).written)
  · exact upsertUser_of_written (users ▸ userUpserted.written)
  · rw [← hRole]
    exact upsertMembership_of_written singleAfter listed level

theorem upsertOrganization_again {o : OrgUpdate} (ran : upsertOrganization draws db o = .ok after) :
    upsertOrganization draws' after o = .ok after := by
  obtain ⟨orgId, hOrg⟩ := upsertOrganization_eq_ok.mp ran
  exact upsertOrganization_eq_ok.mpr ⟨orgId, upsertOrg_of_written (upsertOrg_spec hOrg).written⟩

theorem updateUser_again {u : UserUpdate} (ran : updateUser db u = .ok after) :
    updateUser after u = .ok after := by
  obtain ⟨storable, tables⟩ := updateUser_eq_ok.mp ran
  refine updateUser_eq_ok.mpr ⟨storable, ?_⟩
  have users : updateWhere (·.externalAuthId = some u.clerkUserId)
      (fun row => { row with email := u.email, displayName := u.displayName }) after.users =
      after.users := by
    rw [tables]
    exact updateWhere_updateWhere fun _ => rfl
  rw [users]

theorem revokeUser_again {clerkUserId : String} (ran : revokeUser db clerkUserId = .ok after) :
    revokeUser after clerkUserId = .ok after :=
  revokeUser_eq_ok.mpr ⟨(revokeUser_eq_ok.mp ran).1,
    statement_eq_ok.mp (updateUsers_unknown (revokeUser_unknown ran) _)⟩

/-- A removal keeps the organization and the user, so that the second finds both and no row. -/
theorem removeMembership_again {clerkOrgId clerkUserId : String}
    (ran : removeMembership db clerkOrgId clerkUserId = .ok after) :
    removeMembership after clerkOrgId clerkUserId = .ok after := by
  unfold removeMembership at ran
  obtain ⟨storable, ran⟩ := textParameters_bind_eq_ok.mp ran
  refine textParameters_bind_eq_ok.mpr ⟨storable, ?_⟩
  split at ran
  · next orgId userId hOrg hUser =>
    have tables := statement_eq_ok.mp ran
    have sameOrg : orgIdByExternal after clerkOrgId = some orgId := by
      rw [← hOrg, orgIdByExternal, orgIdByExternal, tables]
    have sameUser : userIdByExternal after clerkUserId = some userId := by
      rw [← hUser, userIdByExternal, userIdByExternal, tables]
    rw [sameOrg, sameUser]
    refine statement_eq_ok.mpr ?_
    rw [tables, List.filter_filter]
    simp
  · next missing =>
    cases ran
    split
    · next orgId userId hOrg hUser => exact absurd hUser (missing orgId userId hOrg)
    · rfl

theorem ProvisioningCall.run_again {call : ProvisioningCall}
    (single : Unique orgLevelKey db.memberships) (ran : call.run draws db = .ok after) :
    call.run draws' after = .ok after := by
  cases call with
  | syncMembership m => exact syncMembership_again single ran
  | removeMembership ref => exact removeMembership_again ran
  | updateUser u => exact updateUser_again ran
  | revokeUser clerkUserId => exact revokeUser_again ran
  | upsertOrganization o => exact upsertOrganization_again ran

theorem applyEvent_again {handled : Bool} (single : Unique orgLevelKey db.memberships)
    (ran : applyEvent draws db event = .ok (handled, after)) :
    applyEvent draws' after event = .ok (handled, after) := by
  rw [applyEvent_eq] at ran ⊢
  obtain ⟨found, read, ran⟩ := bind_eq_ok.mp ran
  rw [read, ok_bind]
  cases found with
  | none =>
    cases ran
    rfl
  | some call =>
    obtain ⟨_, ran, result⟩ := bind_eq_ok.mp ran
    cases result
    simp only [ProvisioningCall.run_again single ran, ok_bind, pure_except]

end Again

/-! ### An event that was refused -/

section Refused

variable {draws draws' : ProvisioningDraws} {db : TenancyDatabase} {event : ClerkEvent}
  {error : ProvisioningError}

theorem statement_eq_error {tables : TenancyTables} (ran : statement tables = .error error) :
    error = .statementRefused := by
  unfold statement at ran
  split at ran <;> cases ran
  rfl

theorem textParameters_bind_eq_error {α : Type} {texts : List String} {next : Unit → Handling α}
    (ran : (textParameters texts >>= next) = .error error)
    (rest : next () = .error error → error = .statementRefused) : error = .statementRefused := by
  rcases bind_eq_error.mp ran with refused | ⟨⟨⟩, -, ran⟩
  · unfold textParameters at refused
    split at refused <;> cases refused
    rfl
  · exact rest ran

theorem bind_statement_eq_error {α : Type} {tables : TenancyTables} {next : TenancyDatabase → α}
    (ran : (do let db ← statement tables; pure (next db) : Handling α) = .error error) :
    error = .statementRefused := by
  rcases bind_eq_error.mp ran with refused | ⟨after, -, result⟩
  · exact statement_eq_error refused
  · cases result

theorem upsertOrg_eq_error {externalId name slug : String}
    (ran : upsertOrg draws db externalId name slug = .error error) :
    error = .statementRefused := by
  refine textParameters_bind_eq_error ran fun ran => ?_
  split at ran <;> exact bind_statement_eq_error ran

theorem upsertUser_eq_error {externalId orgId email displayName : String}
    (ran : upsertUser draws db externalId orgId email displayName = .error error) :
    error = .statementRefused := by
  refine textParameters_bind_eq_error ran fun ran => ?_
  split at ran <;> exact bind_statement_eq_error ran

theorem upsertMembership_eq_error {orgId userId : String} {role : Role}
    (ran : upsertMembership draws db orgId userId role = .error error) :
    error = .statementRefused := by
  unfold upsertMembership at ran
  split at ran <;> exact statement_eq_error ran

theorem syncMembership_eq_error {m : MembershipSync}
    (ran : syncMembership draws db m = .error error) : error = .statementRefused := by
  rcases bind_eq_error.mp ran with refused | ⟨⟨orgId, inOrg⟩, -, ran⟩
  · exact upsertOrg_eq_error refused
  · rcases bind_eq_error.mp ran with refused | ⟨⟨userId, withUser⟩, -, ran⟩
    · exact upsertUser_eq_error refused
    · exact upsertMembership_eq_error ran

theorem upsertOrganization_eq_error {o : OrgUpdate}
    (ran : upsertOrganization draws db o = .error error) : error = .statementRefused := by
  rcases bind_eq_error.mp ran with refused | ⟨written, -, result⟩
  · exact upsertOrg_eq_error refused
  · cases result

/-- Of two attempts that only the database can refuse, and that succeed alike, both are refused if
one is. -/
theorem refused_alike {α : Type} {first second : Handling α}
    (only : ∀ {error}, first = .error error → error = .statementRefused)
    (only' : ∀ {error}, second = .error error → error = .statementRefused)
    (alike : (∃ after, second = .ok after) → ∃ after, first = .ok after)
    (ran : first = .error error) : second = .error error := by
  obtain rfl := only ran
  cases ran' : second with
  | ok after =>
    obtain ⟨other, applied⟩ := alike ⟨after, ran'⟩
    rw [applied] at ran
    cases ran
  | error refused => rw [only' ran']

/-- What the database refuses does not depend on the random ids. -/
theorem syncMembership_redrawn {m : MembershipSync} (fresh : draws.Fresh db)
    (fresh' : draws'.Fresh db) (ran : syncMembership draws db m = .error error) :
    syncMembership draws' db m = .error error :=
  refused_alike syncMembership_eq_error syncMembership_eq_error
    (fun applied => (syncMembership_ok_iff fresh).mpr ((syncMembership_ok_iff fresh').mp applied))
    ran

theorem upsertOrganization_redrawn {o : OrgUpdate} (fresh : draws.Fresh db)
    (fresh' : draws'.Fresh db) (ran : upsertOrganization draws db o = .error error) :
    upsertOrganization draws' db o = .error error :=
  refused_alike upsertOrganization_eq_error upsertOrganization_eq_error
    (fun applied =>
      (upsertOrganization_ok_iff fresh.orgId).mpr
        ((upsertOrganization_ok_iff fresh'.orgId).mp applied))
    ran

theorem ProvisioningCall.run_redrawn {call : ProvisioningCall} (fresh : draws.Fresh db)
    (fresh' : draws'.Fresh db) (ran : call.run draws db = .error error) :
    call.run draws' db = .error error := by
  cases call with
  | syncMembership m => exact syncMembership_redrawn fresh fresh' ran
  | upsertOrganization o => exact upsertOrganization_redrawn fresh fresh' ran
  | _ => exact ran

theorem applyEvent_redrawn (fresh : draws.Fresh db) (fresh' : draws'.Fresh db)
    (ran : applyEvent draws db event = .error error) :
    applyEvent draws' db event = .error error := by
  rw [applyEvent_eq] at ran ⊢
  rcases bind_eq_error.mp ran with refused | ⟨found, read, ran⟩
  · exact bind_eq_error.mpr (.inl refused)
  · refine bind_eq_error.mpr (.inr ⟨found, read, ?_⟩)
    cases found with
    | none => cases ran
    | some call =>
      rcases bind_eq_error.mp ran with refused | ⟨after, -, result⟩
      · exact bind_eq_error.mpr (.inl (ProvisioningCall.run_redrawn fresh fresh' refused))
      · cases result

end Refused

/-- An event delivered twice leaves the tables as one delivery does and is answered alike, and one
that is refused leaves them as they were. -/
theorem handle_idempotent (draws draws' : ProvisioningDraws) (db : TenancyDatabase)
    (event : ClerkEvent) (single : Unique orgLevelKey db.memberships) (fresh : draws.Fresh db)
    (fresh' : draws'.Fresh (handle draws db event).2) :
    handle draws' (handle draws db event).2 event = handle draws db event ∧
      ∀ error, (handle draws db event).1 = .error error → (handle draws db event).2 = db := by
  cases ran : applyEvent draws db event with
  | ok result =>
    obtain ⟨handled, after⟩ := result
    have first : handle draws db event = (.ok handled, after) := by rw [handle, ran]
    rw [first]
    constructor
    · rw [handle, applyEvent_again single ran]
    · intro error refused
      cases refused
  | error error =>
    have first : handle draws db event = (.error error, db) := by rw [handle, ran]
    rw [first] at fresh' ⊢
    refine ⟨?_, fun _ _ => rfl⟩
    rw [handle, applyEvent_redrawn fresh fresh' ran]

/-- The first delivery adds the organization, the user and the membership, under ids that the second
does not draw. -/
theorem handle_idempotent_acme :
    handle secondDraws (handle firstDraws .empty (joins acmeMember)).2 (joins acmeMember) =
        handle firstDraws .empty (joins acmeMember) ∧
      ∀ error, (handle firstDraws .empty (joins acmeMember)).1 = .error error →
        (handle firstDraws .empty (joins acmeMember)).2 = .empty :=
  handle_idempotent firstDraws secondDraws .empty (joins acmeMember) (by decide)
    ⟨nofun, nofun, nofun⟩ ⟨by decide, by decide, by decide⟩

end Donna
