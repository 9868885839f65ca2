import Donna.ControlPlane.Membership
import Donna.ControlPlane.ProvisioningSessions

/-! At most one organization-level membership of a user in an organization, under every interleaving
of provisioning events.  No unique key covers these rows.  What keeps them apart is the organization
row: a sync has updated or inserted it before it looks for the membership, and holds it until it
commits. -/

namespace Donna

open ReadCommitted Table

/-- The pair for which a row is an organization-level membership. -/
def orgLevelPair (row : StoredMembership) : Option (String × String) :=
  if row.deleted = false ∧ row.teamId = none then some (row.organizationId, row.userId) else none

/-- The role of the sync of a pair that committed last. -/
def lastRole (syncs : List CommittedSync) (orgId userId : String) : Option Role :=
  (syncs.filter fun sync => sync.organizationId = orgId ∧ sync.userId = userId).getLast?.map
    (·.role)

namespace ProvisioningWorld

/-- At most one organization-level membership for each organization and user. -/
def OneOrgLevel (world : ProvisioningWorld) : Prop :=
  Tables.Unique orgLevelPair world.memberships.committedRows

/-- The role of an organization-level membership is that of the sync that committed last, or the row
is there from the start. -/
def RolesOfLast (world start : ProvisioningWorld) : Prop :=
  ∀ row ∈ world.memberships.committedRows, ∀ orgId userId, orgLevelPair row = some (orgId, userId) →
    match lastRole world.syncs orgId userId with
    | some role => row.role = role
    | none => row ∈ start.memberships.committedRows

/-- No call is under way, the primary keys hold, and the ids of the rows have been drawn. -/
structure Quiescent (world : ProvisioningWorld) : Prop where
  idle : ∀ session, world.phases session = .idle
  organizationsSettled : ∀ position, world.organizations.pendingAt position = none
  usersSettled : ∀ position, world.users.pendingAt position = none
  membershipsSettled : ∀ position, world.memberships.pendingAt position = none
  organizations_pkey : Tables.Unique (some ·.id) world.organizations.committedRows
  memberships_pkey : Tables.Unique (some ·.id) world.memberships.committedRows
  organizationsDrawn : ∀ row ∈ world.organizations.committedRows, row.id ∈ world.used
  membershipsDrawn : ∀ row ∈ world.memberships.committedRows, row.id ∈ world.used
  unsynced : world.syncs = []

/-! ### The lock on the organization -/

/-- The columns of a membership that no statement updates. -/
def member (row : StoredMembership) : String × String × String × Option String :=
  (row.id, row.organizationId, row.userId, row.teamId)

/-- Statements keep those columns, and bring no deleted row back. -/
def Becomes (old row : StoredMembership) : Prop :=
  member old = member row ∧ (row.deleted = false → old.deleted = false)

variable (world : ProvisioningWorld) (session : ℕ)

def SeesOrg (orgId : String) (position : ℕ) : Prop :=
  ∃ row, world.organizations.visibleAt session position = some row ∧ row.id = orgId

/-- The session has written the organization's row, so no other session writes it. -/
def HoldsOrg (orgId : String) : Prop :=
  ∃ position row, world.organizations.pendingAt position = some (session, row) ∧ row.id = orgId

/-- Some version of the tuple is an organization-level membership of the user. -/
def OrgLevelAt (orgId userId : String) (position : ℕ) : Prop :=
  ∃ row, world.memberships.HasVersion position row ∧ isStoredOrgLevel orgId userId row = true

/-- The id is that of the user's organization-level membership, if there is one, and of no other
row. -/
structure Identifies (orgId userId found : String) : Prop where
  drawn : found ∈ world.used
  same : ∀ position row, world.memberships.HasVersion position row →
    isStoredOrgLevel orgId userId row = true → row.id = found
  only : ∀ position row, world.memberships.HasVersion position row → row.id = found →
    isOrgLevel orgId userId row.toMembershipRow = true

def WritesMembership (position : ℕ) : Prop :=
  ∃ row, world.memberships.pendingAt position = some (session, row)

/-- What holds of the tables while a session stands at a statement. -/
def Standing : ProvisioningPhase → Prop
  | .orgFound _ _ existing => ∃ position, world.SeesOrg session existing position
  | .orgUpdating _ _ existing targets =>
    world.HoldsOrg session existing ∨ ∃ position ∈ targets, world.SeesOrg session existing position
  | .upsertUser _ orgId | .userFound _ orgId _ | .userUpdating _ orgId _ _ | .userMissing _ orgId
  | .upsertMembership _ orgId _ => world.HoldsOrg session orgId
  | .membershipMissing _ orgId userId =>
    world.HoldsOrg session orgId ∧ ∀ position, ¬ world.OrgLevelAt orgId userId position
  | .membershipFound _ orgId userId found =>
    world.HoldsOrg session orgId ∧ world.Identifies orgId userId found
  | .membershipUpdating _ orgId userId found targets =>
    world.HoldsOrg session orgId ∧ world.Identifies orgId userId found ∧
      ∀ position, world.OrgLevelAt orgId userId position →
        position ∈ targets ∨ world.WritesMembership session position
  | .synced _ orgId userId =>
    world.HoldsOrg session orgId ∧ ∀ position, world.OrgLevelAt orgId userId position →
      world.WritesMembership session position
  | _ => True

/-- What a session has written to the memberships by the time that it stands at a statement. -/
def OwnWrite (phase : ProvisioningPhase) (row : StoredMembership) : Prop :=
  match phase with
  | .membershipUpdating m orgId userId _ _ | .synced m orgId userId =>
    isStoredOrgLevel orgId userId row = true ∧ row.role = m.role
  | .removing _ _ _ | .ending => row.deleted = true
  | _ => False

/-- What every interleaving keeps. -/
structure Invariant (start world : ProvisioningWorld) : Prop where
  organizations : world.organizations.Identified (·.id) (·.id)
  memberships : world.memberships.Identified (·.id) member
  organizationsDrawn : ∀ position row, world.organizations.HasVersion position row →
    row.id ∈ world.used
  membershipsDrawn : ∀ position row, world.memberships.HasVersion position row →
    row.id ∈ world.used
  writes : ∀ position owner row, world.memberships.pendingAt position = some (owner, row) →
    OwnWrite (world.phases owner) row
  standing : ∀ session, world.Standing session (world.phases session)
  one : ∀ orgId userId p q, world.OrgLevelAt orgId userId p → world.OrgLevelAt orgId userId q →
    p = q
  roles : world.RolesOfLast start

/-- What a step of one session leaves to the others. -/
structure Leaves (session : ℕ) (org : Option OrganizationRow) (membership : Option StoredMembership)
    (world after : ProvisioningWorld) : Prop where
  organizations : Spares session world.organizations after.organizations
  memberships : Spares session world.memberships after.memberships
  organizationsGrow : Grows (·.id = ·.id) org world.organizations after.organizations
  membershipsGrow : Grows Becomes membership world.memberships after.memberships
  organizationsKept : ∀ position old, world.organizations.committedAt position = some old →
    ∃ later, after.organizations.committedAt position = some later ∧ later.id = old.id
  used : world.used ⊆ after.used
  newOrg : ∀ row, org = some row → row.id ∉ world.used ∧ row.id ∈ after.used := by
    simp
  newMembership : ∀ row, membership = some row → row.id ∉ world.used ∧ row.id ∈ after.used ∧
    world.HoldsOrg session row.organizationId ∧
    ∀ position, ¬ world.OrgLevelAt row.organizationId row.userId position := by
    simp

end ProvisioningWorld

/-! ### Rows -/

section Rows

variable {old row : StoredMembership} {orgId userId : String}

theorem isStoredOrgLevel_iff : isStoredOrgLevel orgId userId row = true ↔
    row.deleted = false ∧ row.userId = userId ∧ row.organizationId = orgId ∧ row.teamId = none := by
  simp [isStoredOrgLevel, isOrgLevel_iff]

theorem orgLevelPair_eq_some :
    orgLevelPair row = some (orgId, userId) ↔ isStoredOrgLevel orgId userId row = true := by
  rw [orgLevelPair, Option.ite_none_right_eq_some, isStoredOrgLevel_iff, Option.some.injEq,
    Prod.mk.injEq]
  tauto

namespace ProvisioningWorld

theorem Becomes.refl (row : StoredMembership) : Becomes row row := ⟨rfl, id⟩

theorem Becomes.id (becomes : Becomes old row) : old.id = row.id :=
  (Prod.ext_iff.mp becomes.1).1

theorem isOrgLevel_of_member (same : member old = member row) :
    isOrgLevel orgId userId old.toMembershipRow = isOrgLevel orgId userId row.toMembershipRow := by
  simp only [member, Prod.mk.injEq] at same
  obtain ⟨-, hOrganization, hUser, hTeam⟩ := same
  rw [isOrgLevel, isOrgLevel, hOrganization, hUser, hTeam]

theorem Becomes.isStoredOrgLevel (becomes : Becomes old row)
    (level : isStoredOrgLevel orgId userId row = true) :
    isStoredOrgLevel orgId userId old = true := by
  rw [Donna.isStoredOrgLevel, Bool.and_eq_true, Bool.not_eq_true'] at level ⊢
  exact ⟨becomes.2 level.1, (isOrgLevel_of_member becomes.1).trans level.2⟩

end ProvisioningWorld

end Rows

/-! ### Steps of one session seen by another -/

namespace ProvisioningWorld

section Transfer

variable {start world after : ProvisioningWorld} {session other : ℕ} {org : Option OrganizationRow}
  {membership : Option StoredMembership} {orgId userId found : String} {position : ℕ}

/-- Two sessions never hold one organization. -/
theorem Invariant.exclusive (inv : Invariant start world) (holds : world.HoldsOrg session orgId)
    (holds' : world.HoldsOrg other orgId) : session = other := by
  obtain ⟨p, a, hA, idA⟩ := holds
  obtain ⟨q, b, hB, idB⟩ := holds'
  obtain rfl := inv.organizations.distinct p q a b (.inr ⟨session, hA⟩) (.inr ⟨other, hB⟩)
    (idA.trans idB.symm)
  exact (Prod.ext_iff.mp (Option.some.inj (hA.symm.trans hB))).1

theorem Identifies.of_old (identifies : world.Identifies orgId userId found)
    (used : world.used ⊆ after.used)
    (known : ∀ position row, after.memberships.HasVersion position row →
      isStoredOrgLevel orgId userId row = true ∨ row.id = found →
      ∃ old, world.memberships.HasVersion position old ∧ Becomes old row) :
    after.Identifies orgId userId found := by
  refine ⟨used identifies.drawn, fun position row has level => ?_,
    fun position row has hId => ?_⟩
  · obtain ⟨old, hasOld, becomes⟩ := known position row has (.inl level)
    exact becomes.id.symm.trans
      (identifies.same position old hasOld (becomes.isStoredOrgLevel level))
  · obtain ⟨old, hasOld, becomes⟩ := known position row has (.inr hId)
    rw [← isOrgLevel_of_member becomes.1]
    exact identifies.only position old hasOld (becomes.id.trans hId)

namespace Leaves

variable (leaves : Leaves session org membership world after) (different : other ≠ session)

include leaves different

theorem seesOrg (sees : world.SeesOrg other orgId position) :
    after.SeesOrg other orgId position := by
  obtain ⟨row, visible, hId⟩ := sees
  obtain ⟨later, hLater, same⟩ :=
    leaves.organizations.visibleAt different leaves.organizationsKept visible
  exact ⟨later, hLater, same.trans hId⟩

theorem holdsOrg (holds : world.HoldsOrg other orgId) : after.HoldsOrg other orgId := by
  obtain ⟨position, row, pending, hId⟩ := holds
  exact ⟨position, row, (leaves.organizations other different position row).1.mpr pending, hId⟩

theorem writesMembership (writes : world.WritesMembership other position) :
    after.WritesMembership other position := by
  obtain ⟨row, pending⟩ := writes
  exact ⟨row, (leaves.memberships other different position row).1.mpr pending⟩

variable (inv : Invariant start world) (holds : world.HoldsOrg other orgId)

include inv holds

/-- A membership is inserted only into an organization that the session holds itself. -/
theorem orgLevel_old {row : StoredMembership} (has : after.memberships.HasVersion position row)
    (level : isStoredOrgLevel orgId userId row = true) :
    ∃ old, world.memberships.HasVersion position old ∧ Becomes old row := by
  rcases leaves.membershipsGrow position row has with known | ⟨inserted, -⟩
  · exact known
  · obtain ⟨-, -, holds', -⟩ := leaves.newMembership row inserted
    rw [(isStoredOrgLevel_iff.mp level).2.2.1] at holds'
    exact absurd (inv.exclusive holds holds') different

theorem orgLevelAt (level : after.OrgLevelAt orgId userId position) :
    world.OrgLevelAt orgId userId position := by
  obtain ⟨row, has, level⟩ := level
  obtain ⟨old, hasOld, becomes⟩ := leaves.orgLevel_old different inv holds has level
  exact ⟨old, hasOld, becomes.isStoredOrgLevel level⟩

theorem identifies (identifies : world.Identifies orgId userId found) :
    after.Identifies orgId userId found := by
  refine identifies.of_old leaves.used fun position row has why => ?_
  rcases why with level | hId
  · exact leaves.orgLevel_old different inv holds has level
  · rcases leaves.membershipsGrow position row has with known | ⟨inserted, -⟩
    · exact known
    · exact absurd (hId ▸ identifies.drawn) (leaves.newMembership row inserted).1

end Leaves

theorem Standing.transfer {phase : ProvisioningPhase} (inv : Invariant start world)
    (leaves : Leaves session org membership world after) (different : other ≠ session)
    (standing : world.Standing other phase) : after.Standing other phase := by
  cases phase with
  | orgFound =>
    obtain ⟨position, sees⟩ := standing
    exact ⟨position, leaves.seesOrg different sees⟩
  | orgUpdating =>
    rcases standing with holds | ⟨position, target, sees⟩
    · exact .inl (leaves.holdsOrg different holds)
    · exact .inr ⟨position, target, leaves.seesOrg different sees⟩
  | upsertUser | userFound | userUpdating | userMissing | upsertMembership =>
    exact leaves.holdsOrg different standing
  | membershipMissing =>
    obtain ⟨holds, none⟩ := standing
    exact ⟨leaves.holdsOrg different holds, fun position level =>
      none position (leaves.orgLevelAt different inv holds level)⟩
  | membershipFound =>
    obtain ⟨holds, identifies⟩ := standing
    exact ⟨leaves.holdsOrg different holds, leaves.identifies different inv holds identifies⟩
  | membershipUpdating =>
    obtain ⟨holds, identifies, covered⟩ := standing
    refine ⟨leaves.holdsOrg different holds, leaves.identifies different inv holds identifies,
      fun position level => ?_⟩
    exact (covered position (leaves.orgLevelAt different inv holds level)).imp_right
      (leaves.writesMembership different)
  | synced =>
    obtain ⟨holds, covered⟩ := standing
    exact ⟨leaves.holdsOrg different holds, fun position level =>
      leaves.writesMembership different
        (covered position (leaves.orgLevelAt different inv holds level))⟩
  | _ => trivial

section Tables

variable (inv : Invariant start world) (leaves : Leaves session org membership world after)

include inv leaves

theorem Leaves.organizationsDrawn {row : OrganizationRow}
    (has : after.organizations.HasVersion position row) : row.id ∈ after.used := by
  rcases leaves.organizationsGrow position row has with ⟨old, hasOld, same⟩ | ⟨inserted, -⟩
  · exact same ▸ leaves.used (inv.organizationsDrawn position old hasOld)
  · exact (leaves.newOrg row inserted).2

theorem Leaves.membershipsDrawn {row : StoredMembership}
    (has : after.memberships.HasVersion position row) : row.id ∈ after.used := by
  rcases leaves.membershipsGrow position row has with ⟨old, hasOld, becomes⟩ | ⟨inserted, -⟩
  · exact becomes.id ▸ leaves.used (inv.membershipsDrawn position old hasOld)
  · exact (leaves.newMembership row inserted).2.1

theorem Leaves.organizationsIdentified : after.organizations.Identified (·.id) (·.id) := by
  refine inv.organizations.grows (fun _ _ same => same) (fun _ _ same => same)
    leaves.organizationsGrow fun new inserted position old has same => ?_
  exact (leaves.newOrg new inserted).1 (same ▸ inv.organizationsDrawn position old has)

theorem Leaves.membershipsIdentified : after.memberships.Identified (·.id) member := by
  refine inv.memberships.grows (fun _ _ same => (Prod.ext_iff.mp same).1)
    (fun _ _ becomes => becomes.1) leaves.membershipsGrow
    fun new inserted position old has same => ?_
  exact (leaves.newMembership new inserted).1 (same ▸ inv.membershipsDrawn position old has)

/-- A membership is inserted only where there is none of its user. -/
theorem Leaves.one {p q : ℕ} (levelP : after.OrgLevelAt orgId userId p)
    (levelQ : after.OrgLevelAt orgId userId q) : p = q := by
  obtain ⟨a, hA, levelA⟩ := levelP
  obtain ⟨b, hB, levelB⟩ := levelQ
  have unheld : ∀ row, isStoredOrgLevel orgId userId row = true → membership = some row →
      ∀ position, ¬ world.OrgLevelAt orgId userId position := by
    intro row level inserted
    obtain ⟨-, rfl, rfl, -⟩ := isStoredOrgLevel_iff.mp level
    exact (leaves.newMembership row inserted).2.2.2
  rcases leaves.membershipsGrow p a hA with ⟨oldA, hasA, fromA⟩ | ⟨newA, hp⟩ <;>
    rcases leaves.membershipsGrow q b hB with ⟨oldB, hasB, fromB⟩ | ⟨newB, hq⟩
  · exact inv.one orgId userId p q ⟨oldA, hasA, fromA.isStoredOrgLevel levelA⟩
      ⟨oldB, hasB, fromB.isStoredOrgLevel levelB⟩
  · exact absurd ⟨oldA, hasA, fromA.isStoredOrgLevel levelA⟩ (unheld b levelB newB p)
  · exact absurd ⟨oldB, hasB, fromB.isStoredOrgLevel levelB⟩ (unheld a levelA newA q)
  · rw [hp, hq]

end Tables

/-- A step keeps the invariant when it keeps the session's own part and leaves the others' alone. -/
theorem Invariant.of_step {phase : ProvisioningPhase} (inv : Invariant start world)
    (phases : after.phases = Function.update world.phases session phase)
    (leaves : Leaves session org membership world after)
    (writes : ∀ position row, after.memberships.pendingAt position = some (session, row) →
      OwnWrite phase row)
    (standing : after.Standing session phase) (roles : after.RolesOfLast start) :
    Invariant start after where
  organizations := leaves.organizationsIdentified inv
  memberships := leaves.membershipsIdentified inv
  organizationsDrawn _ _ has := leaves.organizationsDrawn inv has
  membershipsDrawn _ _ has := leaves.membershipsDrawn inv has
  writes position owner row pending := by
    rw [phases]
    by_cases same : owner = session
    · subst same
      rw [Function.update_self]
      exact writes position row pending
    · rw [Function.update_of_ne same]
      have held := (leaves.memberships owner same position row).1.mp pending
      exact inv.writes position owner row held
  standing other := by
    rw [phases]
    by_cases same : other = session
    · subst same
      rw [Function.update_self]
      exact standing
    · rw [Function.update_of_ne same]
      exact Standing.transfer inv leaves same (inv.standing other)
  one _ _ _ _ levelP levelQ := leaves.one inv levelP levelQ
  roles := roles

end Transfer

/-! ### Statements -/

section Statements

variable {start world : ProvisioningWorld} {session : ℕ} {phase : ProvisioningPhase}
  {orgId userId : String} {position : ℕ}

theorem RolesOfLast.of_committed {after : ProvisioningWorld} (roles : world.RolesOfLast start)
    (committed : after.memberships.committedAt = world.memberships.committedAt)
    (syncs : after.syncs = world.syncs) : after.RolesOfLast start := by
  intro row listed orgId userId level
  obtain ⟨position, found⟩ := mem_committedRows.mp listed
  rw [committed] at found
  rw [syncs]
  exact roles row (mem_committedRows.mpr ⟨position, found⟩) orgId userId level

theorem Leaves.same {after : ProvisioningWorld}
    (organizations : after.organizations = world.organizations)
    (memberships : after.memberships = world.memberships) (used : world.used ⊆ after.used) :
    Leaves session none none world after where
  organizations := organizations ▸ .refl
  memberships := memberships ▸ .refl
  organizationsGrow := organizations ▸ .refl fun _ => rfl
  membershipsGrow := memberships ▸ .refl Becomes.refl
  organizationsKept position old committed := ⟨old, organizations ▸ committed, rfl⟩
  used := used

/-- A statement that only reads, or that writes users. -/
theorem Invariant.enter (inv : Invariant start world) (users : Table UserRow) {used : List String}
    (drawn : world.used ⊆ used)
    (writes : ∀ row, OwnWrite (world.phases session) row → OwnWrite phase row)
    (standing : world.Standing session phase) :
    Invariant start ({ world with users := users, used := used }.enter session phase) := by
  refine inv.of_step rfl (.same rfl rfl drawn) (fun position row pending => ?_) ?_
    (inv.roles.of_committed rfl rfl)
  · exact writes row (inv.writes position session row pending)
  · have known : ∀ position row, world.memberships.HasVersion position row →
        ∃ old, world.memberships.HasVersion position old ∧ Becomes old row :=
      fun position row has => ⟨row, has, .refl row⟩
    cases phase with
    | membershipFound =>
      exact ⟨standing.1, standing.2.of_old drawn fun place row has _ => known place row has⟩
    | membershipUpdating =>
      obtain ⟨holds, identifies, covered⟩ := standing
      exact ⟨holds, identifies.of_old drawn fun place row has _ => known place row has, covered⟩
    | _ => exact standing

/-- A session that stands where it has written no membership sees the committed ones. -/
theorem Invariant.unwritten (inv : Invariant start world) (session : ℕ)
    (nothing : ∀ row, ¬ OwnWrite (world.phases session) row) (position : ℕ) :
    ¬ world.WritesMembership session position := by
  rintro ⟨row, pending⟩
  exact nothing row (inv.writes position session row pending)

/-- Who writes an organization-level membership holds its organization. -/
theorem Invariant.writer_holds (inv : Invariant start world) {row : StoredMembership}
    (pending : world.memberships.pendingAt position = some (session, row))
    (level : isStoredOrgLevel orgId userId row = true) : world.HoldsOrg session orgId := by
  have write := inv.writes position session row pending
  have standing := inv.standing session
  obtain ⟨present, -, hOrganization, -⟩ := isStoredOrgLevel_iff.mp level
  cases hPhase : world.phases session with
  | membershipUpdating | synced =>
    rw [hPhase] at write standing
    rw [← hOrganization, (isStoredOrgLevel_iff.mp write.1).2.2.1]
    exact standing.1
  | removing | ending =>
    rw [hPhase] at write
    exact absurd (write.symm.trans present) (by decide)
  | _ =>
    rw [hPhase] at write
    exact write.elim

/-- A session that holds the organization sees its organization-level memberships. -/
theorem Invariant.sees_orgLevel (inv : Invariant start world)
    (holds : world.HoldsOrg session orgId) (level : world.OrgLevelAt orgId userId position)
    (unwritten : ¬ world.WritesMembership session position) :
    ∃ row, world.memberships.visibleAt session position = some row ∧
      isStoredOrgLevel orgId userId row = true := by
  obtain ⟨row, committed | ⟨owner, pending⟩, level⟩ := level
  · refine ⟨row, ?_, level⟩
    rwa [visibleAt_committed (not_exists.mp unwritten)]
  · obtain rfl := inv.exclusive holds (inv.writer_holds pending level)
    exact absurd ⟨row, pending⟩ unwritten

/-! #### Organizations -/

theorem Invariant.reachOrg (inv : Invariant start world) {o : OrgUpdate}
    {within : Option MembershipSync} {existing : String} {targets : List ℕ}
    {organizations : Table OrganizationRow}
    (stands : world.phases session = .orgUpdating o within existing targets)
    (reached : world.organizations.updateAt session (fun row => row.id = existing) (renameOrg o)
      position = some organizations) :
    Invariant start ({ world with organizations := organizations }.enter session
      (.orgUpdating o within existing (targets.erase position))) := by
  have standing := inv.standing session
  rw [stands] at standing
  rcases updateAt_cases reached with ⟨rfl, skipped⟩ | ⟨row, visible, holds, free, hC, hP⟩
  · refine inv.enter world.users (List.Subset.refl _) (fun row write => by rwa [stands] at write) ?_
    refine standing.imp_right ?_
    rintro ⟨place, target, row, visible, hId⟩
    refine ⟨place, (List.mem_erase_of_ne ?_).mpr target, row, visible, hId⟩
    rintro rfl
    exact absurd hId (by simpa using skipped row visible)
  · have leaves : Leaves session none none world ({ world with
        organizations := organizations }.enter session
          (.orgUpdating o within existing (targets.erase position))) := {
      organizations := .update free hC hP
      memberships := .refl
      organizationsGrow :=
        .update (fun _ => rfl) visible (show row.id = (renameOrg o row).id from rfl) hC hP
      membershipsGrow := .refl Becomes.refl
      organizationsKept := fun place old committed =>
        ⟨old, (congrFun hC place).trans committed, rfl⟩
      used := List.Subset.refl _ }
    refine inv.of_step rfl leaves (fun place written pending => ?_) (.inl ?_)
      (inv.roles.of_committed rfl rfl)
    · have write := inv.writes place session written pending
      rwa [stands] at write
    · refine ⟨position, renameOrg o row, ?_, of_decide_eq_true holds⟩
      change organizations.pendingAt position = _
      rw [hP, Function.update_self]

theorem Invariant.insertOrg (inv : Invariant start world) {o : OrgUpdate}
    {within : Option MembershipSync} {id : String}
    (stands : world.phases session = .orgMissing o within) (fresh : id ∉ world.used) :
    Invariant start ({ world with
      organizations := world.organizations.insert session (newOrg o id)
      used := id :: world.used }.enter session (.orgUpserted id within)) := by
  have leaves : Leaves session (some (newOrg o id)) none world ({ world with
      organizations := world.organizations.insert session (newOrg o id)
      used := id :: world.used }.enter session (.orgUpserted id within)) := {
    organizations := .insert
    memberships := .refl
    organizationsGrow := .insert fun _ => rfl
    membershipsGrow := .refl Becomes.refl
    organizationsKept := fun place old committed => ⟨old, committedAt_insert.trans committed, rfl⟩
    used := List.subset_cons_self _ _
    newOrg := fun row inserted => by
      cases inserted
      exact ⟨fresh, List.mem_cons_self⟩ }
  refine inv.of_step rfl leaves (fun place written pending => ?_) ?_
    (inv.roles.of_committed rfl rfl)
  · have write := inv.writes place session written pending
    rw [stands] at write
    exact write.elim
  · cases within with
    | none => trivial
    | some m =>
      refine ⟨world.organizations.length, newOrg o id, ?_, rfl⟩
      exact pendingAt_insert.trans (if_pos rfl)

/-! #### Memberships -/

variable {m : MembershipSync} {found : String} {targets : List ℕ}

/-- The row that a select returns is the user's only organization-level membership. -/
theorem Invariant.identifies (inv : Invariant start world) {row : StoredMembership}
    (visible : world.memberships.visibleAt session position = some row)
    (level : isStoredOrgLevel orgId userId row = true) :
    world.Identifies orgId userId row.id := by
  have has := hasVersion_of_visibleAt visible
  refine ⟨inv.membershipsDrawn position row has, fun place other hasOther otherLevel => ?_,
    fun place other hasOther hId => ?_⟩
  · obtain rfl := inv.one orgId userId place position ⟨other, hasOther, otherLevel⟩
      ⟨row, has, level⟩
    exact (Prod.ext_iff.mp (inv.memberships.constant place other row hasOther has)).1
  · obtain rfl := inv.memberships.distinct place position other row hasOther has hId
    rw [isOrgLevel_of_member (inv.memberships.constant place other row hasOther has)]
    rw [isStoredOrgLevel, Bool.and_eq_true] at level
    exact level.2

theorem Invariant.selectMembership (inv : Invariant start world) {result : Option StoredMembership}
    (stands : world.phases session = .upsertMembership m orgId userId)
    (selected : world.memberships.Selects session (isStoredOrgLevel orgId userId) result) :
    Invariant start (world.enter session (.membershipSelected m orgId userId result)) := by
  have holds := inv.standing session
  have unwritten := inv.unwritten session (by rw [stands]; exact fun _ write => write)
  rw [stands] at holds
  cases result with
  | none =>
    refine inv.enter world.users (List.Subset.refl _) (fun row write => by rwa [stands] at write)
      ⟨holds, fun position level => ?_⟩
    obtain ⟨row, visible, level⟩ := inv.sees_orgLevel holds level (unwritten position)
    rw [selected position row visible] at level
    cases level
  | some row =>
    obtain ⟨position, visible, level⟩ := selected
    exact inv.enter world.users (List.Subset.refl _) (fun row write => by rwa [stands] at write)
      ⟨holds, inv.identifies visible level⟩

theorem Invariant.updateMembership (inv : Invariant start world)
    (stands : world.phases session = .membershipFound m orgId userId found) :
    Invariant start (world.enter session (.membershipUpdating m orgId userId found
      (world.memberships.snapshot session (isStoredAs found)))) := by
  have standing := inv.standing session
  have unwritten := inv.unwritten session (by rw [stands]; exact fun _ write => write)
  rw [stands] at standing
  obtain ⟨holds, identifies⟩ := standing
  refine inv.enter world.users (List.Subset.refl _)
    (fun row write => by rw [stands] at write; exact write.elim)
    ⟨holds, identifies, fun position level => .inl ?_⟩
  obtain ⟨row, visible, level⟩ := inv.sees_orgLevel holds level (unwritten position)
  have hId := identifies.same position row (hasVersion_of_visibleAt visible) level
  refine mem_snapshot.mpr ⟨row, visible, ?_⟩
  simp [isStoredAs, hId, (isStoredOrgLevel_iff.mp level).1]

theorem Invariant.updatedMembership (inv : Invariant start world)
    (stands : world.phases session = .membershipUpdating m orgId userId found []) :
    Invariant start (world.enter session (.synced m orgId userId)) := by
  have standing := inv.standing session
  rw [stands] at standing
  obtain ⟨holds, -, covered⟩ := standing
  refine inv.enter world.users (List.Subset.refl _) (fun row write => by rwa [stands] at write)
    ⟨holds, fun position level => ?_⟩
  exact (covered position level).resolve_left List.not_mem_nil

/-- A statement that writes a version over a membership that the session sees. -/
theorem Leaves.updateMembership (phase : ProvisioningPhase)
    {memberships : Table StoredMembership} {seen written : StoredMembership}
    (visible : world.memberships.visibleAt session position = some seen)
    (change : Becomes seen written)
    (free : ∀ owner held, world.memberships.pendingAt position = some (owner, held) →
      owner = session)
    (hC : memberships.committedAt = world.memberships.committedAt)
    (hP : memberships.pendingAt =
      Function.update world.memberships.pendingAt position (some (session, written))) :
    Leaves session none none world
      ({ world with memberships := memberships }.enter session phase) where
  organizations := .refl
  memberships := .update free hC hP
  organizationsGrow := .refl fun _ => rfl
  membershipsGrow := .update Becomes.refl visible change hC hP
  organizationsKept _ old committed := ⟨old, committed, rfl⟩
  used := List.Subset.refl _

/-- What a session has written once it writes over one more membership. -/
theorem Invariant.writes_update (inv : Invariant start world)
    {memberships : Table StoredMembership} {written : StoredMembership}
    (hP : memberships.pendingAt =
      Function.update world.memberships.pendingAt position (some (session, written)))
    (own : OwnWrite phase written)
    (earlier : ∀ row, OwnWrite (world.phases session) row → OwnWrite phase row) (place : ℕ)
    (row : StoredMembership) (pending : memberships.pendingAt place = some (session, row)) :
    OwnWrite phase row := by
  rw [hP] at pending
  by_cases here : place = position
  · subst here
    rw [Function.update_self] at pending
    obtain ⟨-, rfl⟩ := Prod.ext_iff.mp (Option.some.inj pending)
    exact own
  · rw [Function.update_of_ne here] at pending
    exact earlier row (inv.writes place session row pending)

theorem Invariant.reachMembership (inv : Invariant start world)
    {memberships : Table StoredMembership}
    (stands : world.phases session = .membershipUpdating m orgId userId found targets)
    (reached : world.memberships.updateAt session (isStoredAs found) (setRole m) position =
      some memberships) :
    Invariant start ({ world with memberships := memberships }.enter session
      (.membershipUpdating m orgId userId found (targets.erase position))) := by
  have standing := inv.standing session
  rw [stands] at standing
  obtain ⟨holds, identifies, covered⟩ := standing
  rcases updateAt_cases reached with ⟨rfl, skipped⟩ | ⟨row, visible, isRow, free, hC, hP⟩
  · refine inv.enter world.users (List.Subset.refl _) (fun row write => by rwa [stands] at write)
      ⟨holds, identifies, fun place level => ?_⟩
    by_cases written : world.WritesMembership session place
    · exact .inr written
    · refine .inl ((List.mem_erase_of_ne ?_).mpr ((covered place level).resolve_right written))
      rintro rfl
      -- The row is still there, so the statement did not pass it by.
      obtain ⟨row, visible, level⟩ := inv.sees_orgLevel holds level written
      have hId := identifies.same place row (hasVersion_of_visibleAt visible) level
      have passed := skipped row visible
      simp [isStoredAs, hId, (isStoredOrgLevel_iff.mp level).1] at passed
  · rw [isStoredAs, Bool.and_eq_true, decide_eq_true_eq] at isRow
    have has := hasVersion_of_visibleAt visible
    have leaves := Leaves.updateMembership
      (.membershipUpdating m orgId userId found (targets.erase position)) visible
      (show Becomes row (setRole m row) from ⟨rfl, id⟩) free hC hP
    have level : isStoredOrgLevel orgId userId (setRole m row) = true := by
      rw [isStoredOrgLevel, Bool.and_eq_true]
      exact ⟨isRow.1, identifies.only position row has isRow.2⟩
    refine inv.of_step rfl leaves (inv.writes_update hP ⟨level, rfl⟩ fun row write => by
      rwa [stands] at write) ?_ (inv.roles.of_committed hC rfl)
    have known : ∀ place version, memberships.HasVersion place version →
        ∃ old, world.memberships.HasVersion place old ∧ Becomes old version :=
      fun place version has => (leaves.membershipsGrow place version has).resolve_right (by simp)
    refine ⟨holds, identifies.of_old leaves.used fun place version has _ => known place version has,
      fun place level => ?_⟩
    obtain ⟨version, has, level⟩ := level
    obtain ⟨old, hasOld, becomes⟩ := known place version has
    by_cases here : place = position
    · subst here
      exact .inr ⟨setRole m row, (congrFun hP place).trans (Function.update_self ..)⟩
    · refine (covered place ⟨old, hasOld, becomes.isStoredOrgLevel level⟩).imp
        (fun target => (List.mem_erase_of_ne here).mpr target) ?_
      rintro ⟨written, pending⟩
      exact ⟨written, (congrFun hP place).trans ((Function.update_of_ne here ..).trans pending)⟩

theorem Invariant.insertMembership (inv : Invariant start world) {id : String}
    (stands : world.phases session = .membershipMissing m orgId userId)
    (fresh : id ∉ world.used) :
    Invariant start ({ world with
      memberships := world.memberships.insert session (newMembership m orgId userId id)
      used := id :: world.used }.enter session (.synced m orgId userId)) := by
  have standing := inv.standing session
  have unwritten := inv.unwritten session (by rw [stands]; exact fun _ write => write)
  rw [stands] at standing
  obtain ⟨holds, missing⟩ := standing
  have leaves : Leaves session none (some (newMembership m orgId userId id)) world ({ world with
      memberships := world.memberships.insert session (newMembership m orgId userId id)
      used := id :: world.used }.enter session (.synced m orgId userId)) := {
    organizations := .refl
    memberships := .insert
    organizationsGrow := .refl fun _ => rfl
    membershipsGrow := .insert Becomes.refl
    organizationsKept := fun _ old committed => ⟨old, committed, rfl⟩
    used := List.subset_cons_self _ _
    newMembership := fun row inserted => by
      cases inserted
      exact ⟨fresh, List.mem_cons_self, holds, missing⟩ }
  have inserted : ∀ place, place = world.memberships.length →
      (world.memberships.insert session (newMembership m orgId userId id)).pendingAt place =
        some (session, newMembership m orgId userId id) :=
    fun place here => pendingAt_insert.trans (if_pos here)
  refine inv.of_step rfl leaves (fun place row pending => ?_) ⟨holds, ?_⟩
    (inv.roles.of_committed (funext fun _ => committedAt_insert) rfl)
  · change (world.memberships.insert session _).pendingAt place = _ at pending
    rw [pendingAt_insert] at pending
    split at pending
    · obtain ⟨-, rfl⟩ := Prod.ext_iff.mp (Option.some.inj pending)
      exact ⟨by simp [isStoredOrgLevel, isOrgLevel, newMembership], rfl⟩
    · exact absurd ⟨row, pending⟩ (unwritten place)
  · rintro place ⟨row, has, level⟩
    rcases hasVersion_of_insert has with old | ⟨here, -⟩
    · exact absurd ⟨row, old, level⟩ (missing place)
    · exact ⟨_, inserted place here⟩

theorem Invariant.reachRemoval (inv : Invariant start world)
    {memberships : Table StoredMembership}
    (stands : world.phases session = .removing orgId userId targets)
    (reached : world.memberships.updateAt session (isStoredOrgLevel orgId userId) markDeleted
      position = some memberships) :
    Invariant start ({ world with memberships := memberships }.enter session
      (.removing orgId userId (targets.erase position))) := by
  rcases updateAt_cases reached with ⟨rfl, -⟩ | ⟨row, visible, -, free, hC, hP⟩
  · exact inv.enter world.users (List.Subset.refl _) (fun row write => by rwa [stands] at write)
      trivial
  · have change : Becomes row (markDeleted row) :=
      ⟨rfl, fun present => absurd present Bool.noConfusion⟩
    have leaves := Leaves.updateMembership (.removing orgId userId (targets.erase position))
      visible change free hC hP
    exact inv.of_step rfl leaves (inv.writes_update hP rfl fun row write => by
      rwa [stands] at write) trivial (inv.roles.of_committed hC rfl)

/-! #### Ends -/

theorem Invariant.leaves_commit (inv : Invariant start world) (syncs : List CommittedSync) :
    Leaves session none none world { world.commit session with syncs := syncs } where
  organizations := .commit
  memberships := .commit
  organizationsGrow := .commit fun _ => rfl
  membershipsGrow := .commit Becomes.refl
  organizationsKept := inv.organizations.kept_commit
  used := List.Subset.refl _

theorem Invariant.commit (inv : Invariant start world) (syncs : List CommittedSync)
    (roles : { world.commit session with syncs := syncs }.RolesOfLast start) :
    Invariant start { world.commit session with syncs := syncs } :=
  inv.of_step rfl (inv.leaves_commit syncs)
    (fun _ _ pending => absurd pending pendingAt_commit_self) trivial roles

theorem Invariant.rollback (inv : Invariant start world) (session : ℕ) :
    Invariant start (world.rollback session) := by
  have leaves : Leaves session none none world (world.rollback session) := {
    organizations := .rollback
    memberships := .rollback
    organizationsGrow := .rollback fun _ => rfl
    membershipsGrow := .rollback Becomes.refl
    organizationsKept := fun _ old committed => ⟨old, committedAt_rollback.trans committed, rfl⟩
    used := List.Subset.refl _ }
  exact inv.of_step rfl leaves (fun _ _ pending => absurd pending pendingAt_rollback_self) trivial
    (inv.roles.of_committed (funext fun _ => committedAt_rollback) rfl)

/-- A single statement deletes rows and writes no others. -/
theorem Invariant.commit_ending (inv : Invariant start world)
    (stands : world.phases session = .ending) : Invariant start (world.commit session) := by
  refine inv.commit world.syncs fun row listed orgId userId level => ?_
  obtain ⟨position, committed⟩ := mem_committedRows.mp listed
  change (world.memberships.commit session).committedAt position = _ at committed
  rw [committedAt_commit] at committed
  rcases visibleAt_cases committed with own | ⟨committed, -⟩
  · have write := inv.writes position session row own
    rw [stands] at write
    have present := (isStoredOrgLevel_iff.mp (orgLevelPair_eq_some.mp level)).1
    exact absurd (write.symm.trans present) (by decide)
  · exact inv.roles row (mem_committedRows.mpr ⟨position, committed⟩) orgId userId level

theorem lastRole_append_self {syncs : List CommittedSync} {role : Role} :
    lastRole (syncs ++ [⟨orgId, userId, role⟩]) orgId userId = some role := by
  simp [lastRole]

theorem lastRole_append_of_ne {syncs : List CommittedSync} {sync : CommittedSync}
    (other : ¬ (sync.organizationId = orgId ∧ sync.userId = userId)) :
    lastRole (syncs ++ [sync]) orgId userId = lastRole syncs orgId userId := by
  simp [lastRole, other]

theorem Invariant.commitSync (inv : Invariant start world)
    (stands : world.phases session = .synced m orgId userId) :
    Invariant start { world.commit session with
      syncs := world.syncs ++ [⟨orgId, userId, m.role⟩] } := by
  refine inv.commit _ fun row listed orgId' userId' level => ?_
  have standing := inv.standing session
  rw [stands] at standing
  obtain ⟨position, committed⟩ := mem_committedRows.mp listed
  change (world.memberships.commit session).committedAt position = _ at committed
  rw [committedAt_commit] at committed
  have stored := orgLevelPair_eq_some.mp level
  obtain ⟨-, hUser, hOrganization, -⟩ := isStoredOrgLevel_iff.mp stored
  rcases visibleAt_cases committed with own | ⟨committed, others⟩
  · have write := inv.writes position session row own
    rw [stands] at write
    obtain ⟨-, rfl, rfl, -⟩ := isStoredOrgLevel_iff.mp write.1
    rw [← hUser, ← hOrganization, lastRole_append_self]
    exact write.2
  · -- The sync has written over every row of its own pair.
    have other : ¬ (orgId = orgId' ∧ userId = userId') := by
      rintro ⟨rfl, rfl⟩
      obtain ⟨written, pending⟩ := standing.2 position ⟨row, .inl committed, stored⟩
      exact others written pending
    rw [lastRole_append_of_ne other]
    exact inv.roles row (mem_committedRows.mpr ⟨position, committed⟩) orgId' userId' level

end Statements

/-! ### Every interleaving -/

section Runs

variable {start world after : ProvisioningWorld} {session : ℕ}

theorem Invariant.initially (quiet : start.Quiescent) (one : start.OneOrgLevel) :
    Invariant start start := by
  have organizations : ∀ position row, start.organizations.HasVersion position row →
      start.organizations.committedAt position = some row := by
    rintro position row (committed | ⟨owner, pending⟩)
    · exact committed
    · rw [quiet.organizationsSettled] at pending
      cases pending
  have memberships : ∀ position row, start.memberships.HasVersion position row →
      start.memberships.committedAt position = some row := by
    rintro position row (committed | ⟨owner, pending⟩)
    · exact committed
    · rw [quiet.membershipsSettled] at pending
      cases pending
  have organizations_pkey := unique_committedRows.mp quiet.organizations_pkey
  have memberships_pkey := unique_committedRows.mp quiet.memberships_pkey
  exact {
    organizations := {
      distinct := fun p q a b hA hB same => organizations_pkey p q a b b.id
        (organizations p a hA) (organizations q b hB) (congrArg some same) rfl
      constant := fun p a b hA hB => by
        rw [Option.some.inj ((organizations p a hA).symm.trans (organizations p b hB))] }
    memberships := {
      distinct := fun p q a b hA hB same => memberships_pkey p q a b b.id
        (memberships p a hA) (memberships q b hB) (congrArg some same) rfl
      constant := fun p a b hA hB => by
        rw [Option.some.inj ((memberships p a hA).symm.trans (memberships p b hB))] }
    organizationsDrawn := fun position row has => quiet.organizationsDrawn row
      (mem_committedRows.mpr ⟨position, organizations position row has⟩)
    membershipsDrawn := fun position row has => quiet.membershipsDrawn row
      (mem_committedRows.mpr ⟨position, memberships position row has⟩)
    writes := fun position owner row pending => by
      rw [quiet.membershipsSettled] at pending
      cases pending
    standing := fun session => by
      rw [quiet.idle]
      trivial
    one := by
      rintro orgId userId p q ⟨a, hA, levelA⟩ ⟨b, hB, levelB⟩
      exact unique_committedRows.mp one p q a b (orgId, userId) (memberships p a hA)
        (memberships q b hB) (orgLevelPair_eq_some.mpr levelA) (orgLevelPair_eq_some.mpr levelB)
    roles := fun row listed orgId userId _ => by
      rw [quiet.unsynced]
      exact listed }

/-- A statement of a session that has written no membership, and writes none. -/
theorem Invariant.pass (inv : Invariant start world) {phase phase' : ProvisioningPhase}
    (stands : world.phases session = phase) (nothing : ∀ row, ¬ OwnWrite phase row)
    (standing : world.Standing session phase → world.Standing session phase')
    (users : Table UserRow) {used : List String} (drawn : world.used ⊆ used) :
    Invariant start ({ world with users := users, used := used }.enter session phase') := by
  subst stands
  exact inv.enter users drawn (fun row write => absurd write (nothing row))
    (standing (inv.standing session))

theorem Invariant.step (inv : Invariant start world) (step : ProvisioningStep session world after) :
    Invariant start after := by
  have none : ∀ row : StoredMembership, ¬ False := fun _ => id
  have drawn : world.used ⊆ world.used := List.Subset.refl _
  cases step with
  | @begin event call free read =>
    refine inv.pass free none (fun _ => ?_) world.users drawn
    cases call <;> trivial
  | @selectOrg o within found stands result =>
    refine inv.pass stands none (fun _ => ?_) world.users drawn
    cases found with
    | none => trivial
    | some row =>
      obtain ⟨position, visible, -⟩ := result
      exact ⟨position, row, visible, rfl⟩
  | @updateOrg o within existing stands =>
    refine inv.pass stands none ?_ world.users drawn
    rintro ⟨position, row, visible, hId⟩
    exact .inr ⟨position, mem_snapshot.mpr ⟨row, visible, decide_eq_true hId⟩, row, visible, hId⟩
  | reachOrg stands target reached admitted => exact inv.reachOrg stands reached
  | @updatedOrg o within existing stands =>
    refine inv.pass stands none (fun standing => ?_) world.users drawn
    have holds := standing.resolve_right (by simp)
    cases within with
    | none => trivial
    | some m => exact holds
  | insertOrg stands fresh admitted => exact inv.insertOrg stands fresh
  | @selectUser m orgId found stands result =>
    refine inv.pass stands none (fun holds => ?_) world.users drawn
    cases found <;> exact holds
  | updateUser stands | updatedUser stands =>
    refine inv.pass stands none ?_ world.users drawn
    exact id
  | reachUser stands target reached admitted =>
    refine inv.pass stands none ?_ _ drawn
    exact id
  | insertUser stands fresh admitted =>
    refine inv.pass stands none ?_ _ (List.subset_cons_self _ _)
    exact id
  | selectMembership stands result => exact inv.selectMembership stands result
  | updateMembership stands => exact inv.updateMembership stands
  | reachMembership stands target reached admitted => exact inv.reachMembership stands reached
  | updatedMembership stands => exact inv.updatedMembership stands
  | insertMembership stands fresh admitted => exact inv.insertMembership stands fresh
  | commitSync stands => exact inv.commitSync stands
  | selectRemovalOrg stands result | deleteMemberships stands | updateUsers stands
  | updatedUsers stands =>
    refine inv.pass stands none (fun _ => ?_) world.users drawn
    trivial
  | reachUsers stands target reached admitted =>
    refine inv.pass stands none (fun _ => ?_) _ drawn
    trivial
  | @selectRemovalUser ref org found stands result =>
    refine inv.pass stands none (fun _ => ?_) world.users drawn
    unfold ProvisioningPhase.removalSelected
    split <;> trivial
  | reachRemoval stands target reached => exact inv.reachRemoval stands reached
  | deletedMemberships stands =>
    exact inv.enter world.users drawn (fun row write => by rwa [stands] at write) trivial
  | commit stands => exact inv.commit_ending stands
  | abort => exact inv.rollback session

/-- The sessions take their steps in any order. -/
def Reaches (start world : ProvisioningWorld) : Prop :=
  Relation.ReflTransGen (fun before after => ∃ session, ProvisioningStep session before after)
    start world

theorem Invariant.reaches (quiet : start.Quiescent) (one : start.OneOrgLevel)
    (run : start.Reaches world) : Invariant start world := by
  induction run with
  | refl => exact .initially quiet one
  | tail _ taken inv =>
    obtain ⟨session, step⟩ := taken
    exact inv.step step

theorem Invariant.oneOrgLevel (inv : Invariant start world) : world.OneOrgLevel := by
  refine unique_committedRows.mpr fun i j a b pair hA hB levelA levelB => ?_
  exact inv.one pair.1 pair.2 i j ⟨a, .inl hA, orgLevelPair_eq_some.mp levelA⟩
    ⟨b, .inl hB, orgLevelPair_eq_some.mp levelB⟩

end Runs

end ProvisioningWorld

/-- From a state with at most one organization-level membership for each organization and user,
every interleaving keeps it so, with the role of the sync that committed last. -/
theorem provisioning_oneOrgLevel {start world : ProvisioningWorld} (quiet : start.Quiescent)
    (one : start.OneOrgLevel) (run : start.Reaches world) :
    world.OneOrgLevel ∧ world.RolesOfLast start :=
  have inv := ProvisioningWorld.Invariant.reaches quiet one run
  ⟨inv.oneOrgLevel, inv.roles⟩

def noTenants : ProvisioningWorld := ⟨[], [], [], fun _ => .idle, [], []⟩

/-- Two deliveries of one event: the second finds no organization, and gives up once the first has
committed. -/
theorem acme_reached : ∃ world, noTenants.Reaches world ∧
    world.memberships.committedRows = [{
      id := "membership-1"
      organizationId := "org-1"
      userId := "user-1"
      teamId := none
      role := .admin }] ∧
    lastRole world.syncs "org-1" "user-1" = some .admin := by
  have begun : noTenants.Reaches _ :=
    .single ⟨0, @ProvisioningStep.begin 0 _ (joins acmeMember) _ rfl rfl⟩
  have again := begun.tail ⟨1, @ProvisioningStep.begin 1 _ (joins acmeMember) _ rfl rfl⟩
  have unknown := again.tail ⟨0, .selectOrg rfl selects_nil⟩
  have raced := unknown.tail ⟨1, .selectOrg rfl selects_nil⟩
  have org := raced.tail ⟨0, @ProvisioningStep.insertOrg 0 _ _ _ "org-1" rfl (by decide) rfl⟩
  have noUser := org.tail ⟨0, .selectUser rfl selects_nil⟩
  have user := noUser.tail
    ⟨0, @ProvisioningStep.insertUser 0 _ _ _ "user-1" rfl (by decide) rfl⟩
  have noMembership := user.tail ⟨0, .selectMembership rfl selects_nil⟩
  have membership := noMembership.tail
    ⟨0, @ProvisioningStep.insertMembership 0 _ _ _ _ "membership-1" rfl (by decide) rfl⟩
  have synced := membership.tail ⟨0, .commitSync rfl⟩
  exact ⟨_, synced.tail ⟨1, .abort⟩, rfl, rfl⟩

theorem provisioning_oneOrgLevel_acme : ∃ world, noTenants.Reaches world ∧
    world.memberships.committedRows ≠ [] ∧ world.OneOrgLevel ∧ world.RolesOfLast noTenants := by
  obtain ⟨world, run, rows, -⟩ := acme_reached
  have quiet : noTenants.Quiescent := by
    refine ⟨?_, ?_, ?_, ?_, ?_, ?_, ?_, ?_, ?_⟩ <;>
      simp [noTenants, Tables.Unique, committedRows, pendingAt]
  have one : noTenants.OneOrgLevel := by
    simp [noTenants, ProvisioningWorld.OneOrgLevel, Tables.Unique, committedRows]
  exact ⟨world, run, by simp [rows], provisioning_oneOrgLevel quiet one run⟩

end Donna
