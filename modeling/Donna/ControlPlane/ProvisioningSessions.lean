import Donna.Base.RowLocks
import Donna.ControlPlane.Provisioning

/-! Provisioning events that are handled at the same time.  A membership sync is one transaction,
and every other statement commits on its own.  Foreign keys, deadlocks and texts that cannot be
stored only refuse a statement, which aborts its transaction as a lost connection may: `abort`
stands for all of these. -/

namespace Donna

open Js ReadCommitted

inductive ProvisioningCall
  | syncMembership (m : MembershipSync)
  | removeMembership (ref : MembershipRef)
  | updateUser (u : UserUpdate)
  | revokeUser (clerkUserId : String)
  | upsertOrganization (o : OrgUpdate)

/-- The call that `handle` makes for an event, if it knows its type and can read its payload. -/
def provisioningCall (event : ClerkEvent) : Handling (Option ProvisioningCall) :=
  let data : JsValue := .object event.data
  match event.type with
  | "organizationMembership.created" | "organizationMembership.updated" =>
    return some (.syncMembership (← parsed (parseMembershipSync data)))
  | "organizationMembership.deleted" =>
    return some (.removeMembership (← parsed (parseMembershipRef data)))
  | "user.created" | "user.updated" =>
    return some (.updateUser (← parsed (parseUserUpdate data)))
  | "user.deleted" => return some (.revokeUser (← parsed (parseDeletedId data)))
  | "organization.created" | "organization.updated" =>
    return some (.upsertOrganization (← parsed (parseOrgUpdate data)))
  | _ => return none

/-- The effect of a call that nothing interleaves with. -/
def ProvisioningCall.run (draws : ProvisioningDraws) (db : TenancyDatabase) :
    ProvisioningCall → Handling TenancyDatabase
  | .syncMembership m => Donna.syncMembership draws db m
  | .removeMembership ref => Donna.removeMembership db ref.clerkOrgId ref.clerkUserId
  | .updateUser u => Donna.updateUser db u
  | .revokeUser clerkUserId => Donna.revokeUser db clerkUserId
  | .upsertOrganization o => Donna.upsertOrganization draws db o

theorem applyEvent_eq (draws : ProvisioningDraws) (db : TenancyDatabase) (event : ClerkEvent) :
    applyEvent draws db event = (do
      match ← provisioningCall event with
      | some call => do
        let db ← call.run draws db
        pure (true, db)
      | none => pure (false, db)) := by
  unfold applyEvent provisioningCall
  generalize event.type = type
  dsimp only
  split <;> simp only [bind_assoc, pure_bind, ProvisioningCall.run]

/-! ### Tables -/

/-- A membership as its table holds it: a deletion is the last version of a row. -/
structure StoredMembership extends MembershipRow where
  deleted : Bool := false
  deriving DecidableEq

/-- The unique keys in which two organizations clash. -/
def organizationsClash (row other : OrganizationRow) : Bool :=
  row.id = other.id ∨ row.slug = other.slug ∨
    row.externalAuthId ≠ none ∧ row.externalAuthId = other.externalAuthId

def usersClash (row other : UserRow) : Bool :=
  row.id = other.id ∨ row.organizationId = other.organizationId ∧ row.email = other.email ∨
    row.externalAuthId ≠ none ∧ row.externalAuthId = other.externalAuthId

/-- `memberships_user_team_unique` leaves out the rows without a team. -/
def membershipsClash (row other : StoredMembership) : Bool :=
  !row.deleted ∧ !other.deleted ∧ (row.id = other.id ∨
    row.teamId ≠ none ∧ row.userId = other.userId ∧ row.teamId = other.teamId)

/-- Where a call stands: the statement that it runs next, or the rows that the one under way has
still to reach. -/
inductive ProvisioningPhase
  | idle
  | upsertOrg (o : OrgUpdate) (within : Option MembershipSync)
  | orgFound (o : OrgUpdate) (within : Option MembershipSync) (existing : String)
  | orgUpdating (o : OrgUpdate) (within : Option MembershipSync) (existing : String)
      (targets : List ℕ)
  | orgMissing (o : OrgUpdate) (within : Option MembershipSync)
  | upsertUser (m : MembershipSync) (orgId : String)
  | userFound (m : MembershipSync) (orgId existing : String)
  | userUpdating (m : MembershipSync) (orgId existing : String) (targets : List ℕ)
  | userMissing (m : MembershipSync) (orgId : String)
  | upsertMembership (m : MembershipSync) (orgId userId : String)
  | membershipFound (m : MembershipSync) (orgId userId found : String)
  | membershipUpdating (m : MembershipSync) (orgId userId found : String) (targets : List ℕ)
  | membershipMissing (m : MembershipSync) (orgId userId : String)
  | synced (m : MembershipSync) (orgId userId : String)
  | removeMembership (ref : MembershipRef)
  | removalOrg (ref : MembershipRef) (org : Option String)
  | removal (orgId userId : String)
  | removing (orgId userId : String) (targets : List ℕ)
  | usersStatement (clerkUserId : String) (set : UserRow → UserRow)
  | usersUpdating (clerkUserId : String) (set : UserRow → UserRow) (targets : List ℕ)
  | ending

def ProvisioningCall.start : ProvisioningCall → ProvisioningPhase
  | .syncMembership m => .upsertOrg ⟨m.clerkOrgId, m.orgName, m.orgSlug⟩ (some m)
  | .removeMembership ref => .removeMembership ref
  | .updateUser u => .usersStatement u.clerkUserId fun row =>
    { row with email := u.email, displayName := u.displayName }
  | .revokeUser clerkUserId => .usersStatement clerkUserId fun row =>
    { row with externalAuthId := none }
  | .upsertOrganization o => .upsertOrg o none

namespace ProvisioningPhase

def orgSelected (o : OrgUpdate) (within : Option MembershipSync) :
    Option OrganizationRow → ProvisioningPhase
  | some row => .orgFound o within row.id
  | none => .orgMissing o within

/-- What follows the upsert of an organization. -/
def orgUpserted (orgId : String) : Option MembershipSync → ProvisioningPhase
  | some m => .upsertUser m orgId
  | none => .ending

def userSelected (m : MembershipSync) (orgId : String) : Option UserRow → ProvisioningPhase
  | some row => .userFound m orgId row.id
  | none => .userMissing m orgId

def membershipSelected (m : MembershipSync) (orgId userId : String) :
    Option StoredMembership → ProvisioningPhase
  | some row => .membershipFound m orgId userId row.id
  | none => .membershipMissing m orgId userId

/-- A removal returns unless it has found the organization and the user. -/
def removalSelected : Option String → Option String → ProvisioningPhase
  | some orgId, some userId => .removal orgId userId
  | _, _ => .idle

end ProvisioningPhase

/-- A sync that has committed: the ids that its upserts returned, and its role. -/
structure CommittedSync where
  organizationId : String
  userId : String
  role : Role

/-- The tables, the calls that the sessions are at, the random ids that have been drawn, and the
syncs that have committed, in order. -/
structure ProvisioningWorld where
  organizations : Table OrganizationRow
  users : Table UserRow
  memberships : Table StoredMembership
  phases : ℕ → ProvisioningPhase
  used : List String
  syncs : List CommittedSync

namespace ProvisioningWorld

def enter (world : ProvisioningWorld) (session : ℕ) (phase : ProvisioningPhase) :
    ProvisioningWorld :=
  { world with phases := Function.update world.phases session phase }

def commit (world : ProvisioningWorld) (session : ℕ) : ProvisioningWorld :=
  { world with
    organizations := world.organizations.commit session
    users := world.users.commit session
    memberships := world.memberships.commit session
    phases := Function.update world.phases session .idle }

def rollback (world : ProvisioningWorld) (session : ℕ) : ProvisioningWorld :=
  { world with
    organizations := world.organizations.rollback session
    users := world.users.rollback session
    memberships := world.memberships.rollback session
    phases := Function.update world.phases session .idle }

end ProvisioningWorld

/-! ### Statements -/

def renameOrg (o : OrgUpdate) (row : OrganizationRow) : OrganizationRow :=
  { row with name := o.name, slug := o.slug }

def newOrg (o : OrgUpdate) (id : String) : OrganizationRow where
  id := id
  name := o.name
  slug := o.slug
  externalAuthId := some o.clerkOrgId

def moveUser (m : MembershipSync) (orgId : String) (row : UserRow) : UserRow :=
  { row with organizationId := orgId, email := m.email, displayName := m.displayName }

def newUser (m : MembershipSync) (orgId id : String) : UserRow where
  id := id
  organizationId := orgId
  email := m.email
  displayName := m.displayName
  externalAuthId := some m.clerkUserId

def isStoredOrgLevel (orgId userId : String) (row : StoredMembership) : Bool :=
  !row.deleted && isOrgLevel orgId userId row.toMembershipRow

def isStoredAs (id : String) (row : StoredMembership) : Bool :=
  !row.deleted && decide (row.id = id)

def setRole (m : MembershipSync) (row : StoredMembership) : StoredMembership :=
  { row with role := m.role }

def newMembership (m : MembershipSync) (orgId userId id : String) : StoredMembership where
  id := id
  organizationId := orgId
  userId := userId
  teamId := none
  role := m.role

def markDeleted (row : StoredMembership) : StoredMembership := { row with deleted := true }

section Steps

variable (session : ℕ)

/-- A statement of a session, or its progress to one more row.  An update that reaches a row which
another transaction is writing, and an insert whose key another one is writing, have no step: they
wait. -/
inductive ProvisioningStep : ProvisioningWorld → ProvisioningWorld → Prop
  | begin {world event call} (free : world.phases session = .idle)
      (read : provisioningCall event = .ok (some call)) :
      ProvisioningStep world (world.enter session call.start)
  -- `upsertOrg`
  | selectOrg {world o within found} (stands : world.phases session = .upsertOrg o within)
      (result : world.organizations.Selects session
        (fun row => row.externalAuthId = some o.clerkOrgId) found) :
      ProvisioningStep world (world.enter session (.orgSelected o within found))
  | updateOrg {world o within existing}
      (stands : world.phases session = .orgFound o within existing) :
      ProvisioningStep world (world.enter session (.orgUpdating o within existing
        (world.organizations.snapshot session fun row => row.id = existing)))
  | reachOrg {world o within existing targets position organizations}
      (stands : world.phases session = .orgUpdating o within existing targets)
      (target : position ∈ targets)
      (reached : world.organizations.updateAt session (fun row => row.id = existing) (renameOrg o)
        position = some organizations)
      (admitted : organizations.admits session organizationsClash position = true) :
      ProvisioningStep world ({ world with organizations := organizations }.enter session
        (.orgUpdating o within existing (targets.erase position)))
  | updatedOrg {world o within existing}
      (stands : world.phases session = .orgUpdating o within existing []) :
      ProvisioningStep world (world.enter session (.orgUpserted existing within))
  | insertOrg {world o within id} (stands : world.phases session = .orgMissing o within)
      (fresh : id ∉ world.used)
      (admitted : (world.organizations.insert session (newOrg o id)).admits session
        organizationsClash world.organizations.length = true) :
      ProvisioningStep world ({ world with
        organizations := world.organizations.insert session (newOrg o id)
        used := id :: world.used }.enter session (.orgUpserted id within))
  -- `upsertUser`
  | selectUser {world m orgId found} (stands : world.phases session = .upsertUser m orgId)
      (result : world.users.Selects session
        (fun row => row.externalAuthId = some m.clerkUserId) found) :
      ProvisioningStep world (world.enter session (.userSelected m orgId found))
  | updateUser {world m orgId existing}
      (stands : world.phases session = .userFound m orgId existing) :
      ProvisioningStep world (world.enter session (.userUpdating m orgId existing
        (world.users.snapshot session fun row => row.id = existing)))
  | reachUser {world m orgId existing targets position users}
      (stands : world.phases session = .userUpdating m orgId existing targets)
      (target : position ∈ targets)
      (reached : world.users.updateAt session (fun row => row.id = existing) (moveUser m orgId)
        position = some users)
      (admitted : users.admits session usersClash position = true) :
      ProvisioningStep world ({ world with users := users }.enter session
        (.userUpdating m orgId existing (targets.erase position)))
  | updatedUser {world m orgId existing}
      (stands : world.phases session = .userUpdating m orgId existing []) :
      ProvisioningStep world (world.enter session (.upsertMembership m orgId existing))
  | insertUser {world m orgId id} (stands : world.phases session = .userMissing m orgId)
      (fresh : id ∉ world.used)
      (admitted : (world.users.insert session (newUser m orgId id)).admits session
        usersClash world.users.length = true) :
      ProvisioningStep world ({ world with
        users := world.users.insert session (newUser m orgId id)
        used := id :: world.used }.enter session (.upsertMembership m orgId id))
  -- `upsertMembership`
  | selectMembership {world m orgId userId found}
      (stands : world.phases session = .upsertMembership m orgId userId)
      (result : world.memberships.Selects session (isStoredOrgLevel orgId userId) found) :
      ProvisioningStep world (world.enter session (.membershipSelected m orgId userId found))
  | updateMembership {world m orgId userId found}
      (stands : world.phases session = .membershipFound m orgId userId found) :
      ProvisioningStep world (world.enter session (.membershipUpdating m orgId userId found
        (world.memberships.snapshot session (isStoredAs found))))
  | reachMembership {world m orgId userId found targets position memberships}
      (stands : world.phases session = .membershipUpdating m orgId userId found targets)
      (target : position ∈ targets)
      (reached : world.memberships.updateAt session (isStoredAs found) (setRole m) position =
        some memberships)
      (admitted : memberships.admits session membershipsClash position = true) :
      ProvisioningStep world ({ world with memberships := memberships }.enter session
        (.membershipUpdating m orgId userId found (targets.erase position)))
  | updatedMembership {world m orgId userId found}
      (stands : world.phases session = .membershipUpdating m orgId userId found []) :
      ProvisioningStep world (world.enter session (.synced m orgId userId))
  | insertMembership {world m orgId userId id}
      (stands : world.phases session = .membershipMissing m orgId userId)
      (fresh : id ∉ world.used)
      (admitted : (world.memberships.insert session (newMembership m orgId userId id)).admits
        session membershipsClash world.memberships.length = true) :
      ProvisioningStep world ({ world with
        memberships := world.memberships.insert session (newMembership m orgId userId id)
        used := id :: world.used }.enter session (.synced m orgId userId))
  | commitSync {world m orgId userId} (stands : world.phases session = .synced m orgId userId) :
      ProvisioningStep world { world.commit session with
        syncs := world.syncs ++ [⟨orgId, userId, m.role⟩] }
  -- `removeMembership`
  | selectRemovalOrg {world ref found}
      (stands : world.phases session = .removeMembership ref)
      (result : world.organizations.Selects session
        (fun row => row.externalAuthId = some ref.clerkOrgId) found) :
      ProvisioningStep world (world.enter session (.removalOrg ref (found.map (·.id))))
  | selectRemovalUser {world ref org found}
      (stands : world.phases session = .removalOrg ref org)
      (result : world.users.Selects session
        (fun row => row.externalAuthId = some ref.clerkUserId) found) :
      ProvisioningStep world (world.enter session (.removalSelected org (found.map (·.id))))
  | deleteMemberships {world orgId userId}
      (stands : world.phases session = .removal orgId userId) :
      ProvisioningStep world (world.enter session (.removing orgId userId
        (world.memberships.snapshot session (isStoredOrgLevel orgId userId))))
  | reachRemoval {world orgId userId targets position memberships}
      (stands : world.phases session = .removing orgId userId targets)
      (target : position ∈ targets)
      (reached : world.memberships.updateAt session (isStoredOrgLevel orgId userId) markDeleted
        position = some memberships) :
      ProvisioningStep world ({ world with memberships := memberships }.enter session
        (.removing orgId userId (targets.erase position)))
  | deletedMemberships {world orgId userId}
      (stands : world.phases session = .removing orgId userId []) :
      ProvisioningStep world (world.enter session .ending)
  -- `updateUser` and `revokeUser`
  | updateUsers {world clerkUserId set}
      (stands : world.phases session = .usersStatement clerkUserId set) :
      ProvisioningStep world (world.enter session (.usersUpdating clerkUserId set
        (world.users.snapshot session fun row => row.externalAuthId = some clerkUserId)))
  | reachUsers {world clerkUserId set targets position users}
      (stands : world.phases session = .usersUpdating clerkUserId set targets)
      (target : position ∈ targets)
      (reached : world.users.updateAt session (fun row => row.externalAuthId = some clerkUserId) set
        position = some users)
      (admitted : users.admits session usersClash position = true) :
      ProvisioningStep world ({ world with users := users }.enter session
        (.usersUpdating clerkUserId set (targets.erase position)))
  | updatedUsers {world clerkUserId set}
      (stands : world.phases session = .usersUpdating clerkUserId set []) :
      ProvisioningStep world (world.enter session .ending)
  | commit {world} (stands : world.phases session = .ending) :
      ProvisioningStep world (world.commit session)
  | abort {world} : ProvisioningStep world (world.rollback session)

end Steps

end Donna
