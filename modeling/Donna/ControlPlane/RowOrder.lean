import Donna.Base.AnyOrder
import Donna.ControlPlane.Provisioning
import Donna.Policy.Decision

/-! The order of rows.  The queries of the resolver have no `ORDER BY`, so their rows come in any
order, and the role is that of the first organization-level row or else of the first row of all. -/

namespace Donna

open AnyOrder Js JsValue Tables

/-! ### What the queries may return -/

section Rows

variable (db : TenancyDatabase) (user : UserRow)

/-- The result set of the resolver's query of memberships. -/
def membershipsOf : List MembershipRow :=
  db.memberships.filter fun row =>
    row.userId = user.id ∧ row.organizationId = user.organizationId

/-- The result set of its query of project memberships. -/
def projectRowsOf : List ProjectMembershipRow :=
  db.projectMemberships.filter fun row =>
    row.userId = user.id ∧ row.organizationId = user.organizationId

/-- What `resolve` makes of a user and of the rows in the order in which they came. -/
def principalOf (memberships : List MembershipRow) (projectRows : List ProjectMembershipRow) :
    Option PrincipalContext := do
  let primary ← memberships.find? (·.teamId.isNone) <|> memberships.head?
  pure {
    userId := user.id
    organizationId := user.organizationId
    role := primary.role
    actorKind := .human
    teamIds := memberships.filterMap (·.teamId)
    projectIds := projectRows.map (·.projectId) }

/-- A result that `resolve` can return, for some order of each result set. -/
def ResolvesTo (subject : String) (result : Option PrincipalContext) : Prop :=
  match db.users.find? (·.externalAuthId = some subject) with
  | none => result = none
  | some user => ∃ memberships projectRows, memberships.Perm (membershipsOf db user) ∧
      projectRows.Perm (projectRowsOf db user) ∧ result = principalOf user memberships projectRows

end Rows

/-- The two principals differ at most in the order of their teams and projects. -/
structure SamePrincipal (first second : PrincipalContext) : Prop where
  userId : first.userId = second.userId
  organizationId : first.organizationId = second.organizationId
  role : first.role = second.role
  actorKind : first.actorKind = second.actorKind
  teamIds : first.teamIds.Perm second.teamIds
  projectIds : first.projectIds.Perm second.projectIds

/-- And the engine decides alike on them, whatever else is in its input. -/
structure SameAuthority (first second : PrincipalContext) : Prop
    extends SamePrincipal first second where
  decisions : ∀ (realm : Realm) (rest : List (String × JsValue)),
    evaluate realm (.object (("principal", first.toJs) :: rest)) =
      evaluate realm (.object (("principal", second.toJs) :: rest))

/-- What the resolver returns does not depend on the order of the rows. -/
def OrderIndependent (db : TenancyDatabase) (subject : String) : Prop :=
  ∀ first second, ResolvesTo db subject first → ResolvesTo db subject second →
    Option.Rel SameAuthority first second

/-- Every two rows that can give the user its role give the same: the organization-level rows, or
all rows where there is none. -/
def RolesAgree (db : TenancyDatabase) (subject : String) : Prop :=
  ∀ user ∈ db.users, user.externalAuthId = some subject →
    ∀ a ∈ db.memberships, a.userId = user.id → ∀ b ∈ db.memberships, b.userId = user.id →
      (a.teamId = none ∧ b.teamId = none ∨
        ∀ row ∈ db.memberships, row.userId = user.id → row.teamId ≠ none) →
      a.role = b.role

/-! ### Decisions on the same principal -/

section Decisions

variable {realm : Realm} {first second : PrincipalContext}

theorem includes_strings_perm {ids ids' : List String} (same : ids.Perm ids') (item : JsValue) :
    includes realm (strings ids) item = includes realm (strings ids') item :=
  congrArg Except.ok (same.map JsValue.string).any_eq

theorem SamePrincipal.hasScopeAccess (same : SamePrincipal first second) (resource : JsValue) :
    hasScopeAccess realm first.toJs resource = hasScopeAccess realm second.toJs resource := by
  simp only [Donna.hasScopeAccess, PrincipalContext.get_toJs, PrincipalContext.own_teamIds,
    PrincipalContext.own_projectIds, PrincipalContext.own_userId, ok_bind, same.userId,
    includes_strings_perm same.teamIds, includes_strings_perm same.projectIds]

/-- The gates read the teams and the projects only to look for one of them. -/
theorem SamePrincipal.evaluateGates (same : SamePrincipal first second)
    (action resource killSwitches ceilings : JsValue) :
    evaluateGates realm first.toJs action resource killSwitches ceilings =
      evaluateGates realm second.toJs action resource killSwitches ceilings := by
  simp only [Donna.evaluateGates, same.hasScopeAccess, PrincipalContext.get_toJs,
    PrincipalContext.own_organizationId, PrincipalContext.own_role,
    PrincipalContext.own_actorKind, same.organizationId, same.role, same.actorKind]

theorem SamePrincipal.authority (same : SamePrincipal first second) :
    SameAuthority first second := by
  refine ⟨same, fun realm rest => ?_⟩
  simp only [evaluate, effectiveKillSwitches, effectiveCeilings, get_object, own_object,
    lookup_field, ok_bind, if_true, reduceIte, Option.getD_some, String.reduceEq]
  exact same.evaluateGates _ _ _ _

end Decisions

/-! ### The rows of a user -/

section Orders

variable {db : TenancyDatabase} {user : UserRow} {subject : String}

/-- `resolve` takes the rows in the order in which the tables list them. -/
example : resolve db subject = (db.users.find? (·.externalAuthId = some subject)).bind fun user =>
    principalOf user (membershipsOf db user) (projectRowsOf db user) := rfl

theorem mem_membershipsOf (listed : user ∈ db.users) {row : MembershipRow} :
    row ∈ membershipsOf db user ↔ row ∈ db.memberships ∧ row.userId = user.id := by
  rw [membershipsOf, List.mem_filter, decide_eq_true_eq]
  refine and_congr_right fun hRow => and_iff_left_of_imp fun hUser => ?_
  exact db.membership_inOrg listed hRow hUser

theorem principalOf_eq (memberships : List MembershipRow)
    (projectRows : List ProjectMembershipRow) :
    principalOf user memberships projectRows =
      (firstPreferred (·.teamId.isNone) memberships).map fun primary => {
        userId := user.id
        organizationId := user.organizationId
        role := primary.role
        actorKind := .human
        teamIds := memberships.filterMap (·.teamId)
        projectIds := projectRows.map (·.projectId) } := by
  rw [Option.map_eq_bind]
  rfl

theorem takable_iff (listed : user ∈ db.users) {row : MembershipRow} :
    Takable (·.teamId.isNone) (membershipsOf db user) row ↔
      (row ∈ db.memberships ∧ row.userId = user.id) ∧
        (row.teamId = none ∨
          ∀ other ∈ db.memberships, other.userId = user.id → other.teamId ≠ none) := by
  simp only [Takable, mem_membershipsOf listed, Option.isNone_iff_eq_none, and_imp,
    Option.isNone_eq_false_iff, Option.isSome_iff_ne_none]

theorem rolesAgree_iff : RolesAgree db subject ↔
    ∀ user ∈ db.users, user.externalAuthId = some subject → ∀ a b,
      Takable (·.teamId.isNone) (membershipsOf db user) a →
      Takable (·.teamId.isNone) (membershipsOf db user) b → a.role = b.role := by
  constructor
  · intro agree user listed hExternal a b hA hB
    obtain ⟨⟨rowA, userA⟩, teamA⟩ := (takable_iff listed).mp hA
    obtain ⟨⟨rowB, userB⟩, teamB⟩ := (takable_iff listed).mp hB
    refine agree user listed hExternal a rowA userA b rowB userB ?_
    rcases teamA with noTeamA | teams
    · exact teamB.imp_left fun noTeamB => ⟨noTeamA, noTeamB⟩
    · exact .inr teams
  · intro agree user listed hExternal a rowA userA b rowB userB level
    apply agree user listed hExternal a b
    · exact (takable_iff listed).mpr ⟨⟨rowA, userA⟩, level.imp_left And.left⟩
    · exact (takable_iff listed).mpr ⟨⟨rowB, userB⟩, level.imp_left And.right⟩

/-- Where the roles agree, two orders of the rows make the same principal. -/
theorem principalOf_same {memberships memberships' : List MembershipRow}
    {projectRows projectRows' : List ProjectMembershipRow}
    (sameRows : memberships.Perm memberships') (sameProjects : projectRows.Perm projectRows')
    (agree : ∀ a b, Takable (·.teamId.isNone) memberships a →
      Takable (·.teamId.isNone) memberships b → a.role = b.role) :
    Option.Rel SameAuthority (principalOf user memberships projectRows)
      (principalOf user memberships' projectRows') := by
  rw [principalOf_eq, principalOf_eq]
  cases taken : firstPreferred (·.teamId.isNone) memberships with
  | none =>
    obtain rfl := firstPreferred_eq_none.mp taken
    rw [List.nil_perm.mp sameRows]
    exact .none
  | some a =>
    cases taken' : firstPreferred (·.teamId.isNone) memberships' with
    | none =>
      obtain rfl := firstPreferred_eq_none.mp taken'
      rw [List.perm_nil.mp sameRows] at taken
      cases taken
    | some b =>
      have sameRole : a.role = b.role := agree a b (takable_of_firstPreferred taken)
        ((takable_of_firstPreferred taken').of_perm sameRows)
      refine .some (SamePrincipal.authority ⟨rfl, rfl, sameRole, rfl, ?_, ?_⟩)
      · exact sameRows.filterMap _
      · exact sameProjects.map _

/-- A row that can give the role does, in some order of the rows. -/
theorem resolvesTo_of_takable (listed : user ∈ db.users)
    (hExternal : user.externalAuthId = some subject) {row : MembershipRow}
    (takable : Takable (·.teamId.isNone) (membershipsOf db user) row) :
    ∃ principal, ResolvesTo db subject (some principal) ∧ principal.role = row.role := by
  have found := db.keys.users_external_auth_id_unique.find?_eq_some.mpr ⟨listed, hExternal⟩
  obtain ⟨order, same, taken⟩ := exists_order_iff.mpr takable
  have resolves :
      ResolvesTo db subject (principalOf user order (projectRowsOf db user)) := by
    rw [ResolvesTo, found]
    exact ⟨order, _, same, .refl _, rfl⟩
  rw [principalOf_eq, taken] at resolves
  exact ⟨_, resolves, rfl⟩

end Orders

/-- The resolved authority is independent of the order of the rows exactly when the rows that can
give the user its role agree on it. -/
theorem resolve_orderIndependent_iff (db : TenancyDatabase) (subject : String) :
    OrderIndependent db subject ↔ RolesAgree db subject := by
  rw [rolesAgree_iff]
  constructor
  · intro independent user listed hExternal a b hA hB
    obtain ⟨first, resolves, roleA⟩ := resolvesTo_of_takable listed hExternal hA
    obtain ⟨second, resolves', roleB⟩ := resolvesTo_of_takable listed hExternal hB
    cases independent _ _ resolves resolves' with
    | some same => rw [← roleA, ← roleB, same.role]
  · intro agree first second resolves resolves'
    unfold ResolvesTo at resolves resolves'
    cases found : db.users.find? (·.externalAuthId = some subject) with
    | none =>
      rw [found] at resolves resolves'
      rw [resolves, resolves']
      exact .none
    | some user =>
      rw [found] at resolves resolves'
      obtain ⟨listed, hExternal⟩ :=
        db.keys.users_external_auth_id_unique.find?_eq_some.mp found
      obtain ⟨memberships, projectRows, sameRows, sameProjects, rfl⟩ := resolves
      obtain ⟨memberships', projectRows', sameRows', sameProjects', rfl⟩ := resolves'
      refine principalOf_same (sameRows.trans sameRows'.symm)
        (sameProjects.trans sameProjects'.symm) fun a b hA hB => ?_
      exact agree user listed hExternal a b (hA.of_perm sameRows.symm) (hB.of_perm sameRows.symm)

/-- Jo leads one team and works for another as a contractor, and has no row of the organization. -/
def twoTeams : TenancyDatabase where
  organizations := [⟨"org-1", "Acme", "acme", some "org_acme"⟩]
  users := [⟨"user-1", "org-1", "jo@x.com", "Jo", some "user_jo"⟩]
  teams := [⟨"team-1", "org-1"⟩, ⟨"team-2", "org-1"⟩]
  memberships := [
    ⟨"membership-1", "org-1", "user-1", some "team-1", .teamLead⟩,
    ⟨"membership-2", "org-1", "user-1", some "team-2", .contractor⟩]
  keys := by decide
  references := by decide
  texts := by decide

def leadOfTwo : PrincipalContext where
  userId := "user-1"
  organizationId := "org-1"
  role := .teamLead
  actorKind := .human
  teamIds := ["team-1", "team-2"]
  projectIds := []

def contractorOfTwo : PrincipalContext :=
  { leadOfTwo with role := .contractor, teamIds := ["team-2", "team-1"] }

/-- A routine action on a resource of the organization. -/
def routineInput (principal : PrincipalContext) : PolicyInput where
  principal := principal
  action := { name := "note.create", authorityLevel := .routineAction, sideEffecting := false }
  resource := { organizationId := "org-1", scope := .organization }

/-- The rows in one order make Jo a team lead and in the other a contractor, and the engine allows
the first what it denies the second. -/
theorem resolve_depends_on_order :
    ResolvesTo twoTeams "user_jo" (some leadOfTwo) ∧
      ResolvesTo twoTeams "user_jo" (some contractorOfTwo) ∧
      (∀ realm, evaluate realm (routineInput leadOfTwo).toJs = .ok ⟨.allow, .ok, "Permitted."⟩ ∧
        evaluate realm (routineInput contractorOfTwo).toJs ≠ .ok ⟨.allow, .ok, "Permitted."⟩) ∧
      ¬ OrderIndependent twoTeams "user_jo" := by
  have lead : ResolvesTo twoTeams "user_jo" (some leadOfTwo) :=
    ⟨_, _, .refl _, .refl _, rfl⟩
  have contractor : ResolvesTo twoTeams "user_jo" (some contractorOfTwo) :=
    ⟨[⟨"membership-2", "org-1", "user-1", some "team-2", .contractor⟩,
        ⟨"membership-1", "org-1", "user-1", some "team-1", .teamLead⟩],
      [], .swap _ _ _, .refl _, rfl⟩
  refine ⟨lead, contractor, fun realm => ⟨?_, ?_⟩, fun independent => ?_⟩
  · rw [evaluate_toJs]
    rfl
  · rw [evaluate_toJs]
    intro same
    have effect : PolicyEffect.deny = .allow :=
      congrArg PolicyDecision.effect (Except.ok.inj same)
    cases effect
  · cases independent _ _ lead contractor with
    | some same => exact absurd same.role (by decide)

end Donna
