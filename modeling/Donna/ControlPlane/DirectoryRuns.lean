import Donna.ControlPlane.Directory
import Donna.ControlPlane.Idempotence

/-! Histories of events against the directory: the tables hold the directory that the completed
calls make, who has access and with which role is decided by them alone, and the random ids that a
history draws decide neither that nor the answers. -/

namespace Donna

open Js Tables TenancyDatabase

section Steps

variable {draws : ProvisioningDraws} {db after : TenancyDatabase} {event : ClerkEvent}
  {call : ProvisioningCall}

/-- Handling an event is running its call, if it has one. -/
theorem handle_eq (draws : ProvisioningDraws) (db : TenancyDatabase) (event : ClerkEvent) :
    handle draws db event = match provisioningCall event with
      | .error error => (.error error, db)
      | .ok none => (.ok false, db)
      | .ok (some call) => match call.run draws db with
        | .ok after => (.ok true, after)
        | .error error => (.error error, db) := by
  rw [handle, applyEvent_eq]
  cases provisioningCall event with
  | error error => rfl
  | ok found =>
    cases found with
    | none => rfl
    | some call =>
      simp only [ok_bind]
      cases call.run draws db <;> rfl

/-- The call that an event completed. -/
def acceptedCall (visit : Machine.Visit TenancyDatabase (ProvisioningDraws × ClerkEvent)
    (Handling Bool)) : Option ProvisioningCall :=
  match visit.output, provisioningCall visit.input.2 with
  | .ok _, .ok call => call
  | _, _ => none

/-- The calls that a history completes, in order. -/
def acceptedCalls (db : TenancyDatabase) (inputs : List (ProvisioningDraws × ClerkEvent)) :
    List ProvisioningCall :=
  (Machine.visits provision db inputs).filterMap acceptedCall

/-- One event records the call that it completes. -/
theorem handle_directory (inv : OrgLevelOnly db) (input : ProvisioningDraws × ClerkEvent) :
    (provision db input).2.directory =
      (acceptedCall (Machine.visit provision db input)).toList.foldl Directory.record
        db.directory := by
  simp only [acceptedCall, Machine.visit, provision, handle_eq]
  cases provisioningCall input.2 with
  | error error => rfl
  | ok found =>
    cases found with
    | none => rfl
    | some call =>
      dsimp only
      cases ran : call.run input.1 db with
      | error error => rfl
      | ok after => exact ProvisioningCall.run_directory inv ran

/-- A history records the calls that it completes. -/
theorem final_directory (inv : OrgLevelOnly db) (inputs : List (ProvisioningDraws × ClerkEvent)) :
    (Machine.final provision db inputs).directory =
      (acceptedCalls db inputs).foldl Directory.record db.directory := by
  induction inputs generalizing db with
  | nil => rfl
  | cons input rest ih =>
    have first := handle_directory inv input
    have later := @ih (handle input.1 db input.2).2 (inv.handle input.2)
    rw [Machine.final]
    refine later.trans ?_
    simp only [acceptedCalls, Machine.visits, List.filterMap_cons]
    rw [show (handle input.1 db input.2).2.directory = _ from first]
    cases acceptedCall (Machine.visit provision db input) <;> rfl

theorem directory_empty : TenancyDatabase.empty.directory = .empty := by
  refine Directory.ext rfl rfl (Set.eq_empty_of_forall_notMem ?_)
  rintro held ⟨user, listed, -⟩
  cases listed

theorem orgLevelOnly_empty : OrgLevelOnly .empty := ⟨nofun, rfl, List.nodup_nil⟩

/-- The resolver after a history answers from the directory of the completed calls. -/
theorem final_resolved (inputs : List (ProvisioningDraws × ClerkEvent)) (subject : String) :
    (resolve (Machine.final provision .empty inputs) subject).map
        (Machine.final provision .empty inputs).provided =
      (((acceptedCalls .empty inputs).foldl Directory.record .empty).access subject).map
        fun access => (access.1, access.2, [], []) := by
  rw [(orgLevelOnly_final inputs).resolve_provided, final_directory orgLevelOnly_empty,
    directory_empty]

end Steps

/-- After every history the tables hold the directory of the completed calls, and the resolver gives
each subject the organization and the role that the directory has for it. -/
theorem final_provided (inputs : List (ProvisioningDraws × ClerkEvent)) :
    (Machine.final provision .empty inputs).directory =
        (acceptedCalls .empty inputs).foldl Directory.record .empty ∧
      ∀ subject, (resolve (Machine.final provision .empty inputs) subject).map
          (Machine.final provision .empty inputs).provided =
        (((acceptedCalls .empty inputs).foldl Directory.record .empty).access subject).map
          fun access => (access.1, access.2, [], []) :=
  ⟨by rw [final_directory orgLevelOnly_empty, directory_empty], final_resolved inputs⟩

/-! ### Who has access -/

/-- The call grants the subject the role in the organization. -/
def ProvisioningCall.Grants (subject clerkOrgId : String) (role : Role) (call : ProvisioningCall) :
    Prop :=
  ∃ m, call = .syncMembership m ∧ m.clerkUserId = subject ∧ m.clerkOrgId = clerkOrgId ∧
    m.role = role

/-- The call ends what the subject was granted in the organization. -/
def ProvisioningCall.Withdraws (subject clerkOrgId : String) : ProvisioningCall → Prop
  | .syncMembership m => m.clerkUserId = subject
  | .removeMembership ref => ref.clerkUserId = subject ∧ ref.clerkOrgId = clerkOrgId
  | .revokeUser clerkUserId => clerkUserId = subject
  | .updateUser _ | .upsertOrganization _ => False

section Access

variable {subject clerkOrgId : String} {role : Role}

theorem Directory.access_eq_some {directory : Directory} {organization : Option String} :
    directory.access subject = some (organization, role) ↔
      ∃ user, directory.users subject = some user ∧ user.clerkOrgId = organization ∧
        user.role = some role := by
  simp only [Directory.access, Option.bind_eq_bind, Option.bind_eq_some_iff, Option.pure_def,
    Option.some.injEq, Prod.mk.injEq]
  constructor
  · rintro ⟨user, found, found', hRole, rfl, rfl⟩
    exact ⟨user, found, rfl, hRole⟩
  · rintro ⟨user, found, rfl, hRole⟩
    exact ⟨user, found, role, hRole, rfl, rfl⟩

/-- Access after one call: it is granted now, or was there and is not withdrawn. -/
theorem Directory.record_access (directory : Directory) (call : ProvisioningCall) :
    (directory.record call).access subject = some (some clerkOrgId, role) ↔
      call.Grants subject clerkOrgId role ∨
        directory.access subject = some (some clerkOrgId, role) ∧
          ¬ call.Withdraws subject clerkOrgId := by
  simp only [access_eq_some]
  cases call with
  | syncMembership m =>
    by_cases same : m.clerkUserId = subject
    · subst same
      simp [record, ProvisioningCall.Grants, ProvisioningCall.Withdraws]
    · simp [record, ProvisioningCall.Grants, ProvisioningCall.Withdraws, same, Ne.symm same]
  | removeMembership ref =>
    by_cases same : ref.clerkUserId = subject
    · subst same
      cases found : directory.users ref.clerkUserId with
      | none => simp [record, found, ProvisioningCall.Grants]
      | some user =>
        by_cases here : user.clerkOrgId = some ref.clerkOrgId
        · simpa [record, found, here, ProvisioningCall.Grants, ProvisioningCall.Withdraws] using
            fun inOrg _ => inOrg
        · have apart : user.clerkOrgId = some clerkOrgId → ref.clerkOrgId ≠ clerkOrgId := by
            rintro inOrg rfl
            exact here inOrg
          simpa [record, found, here, ProvisioningCall.Grants, ProvisioningCall.Withdraws] using
            fun inOrg _ => apart inOrg
    · simp [record, ProvisioningCall.Grants, ProvisioningCall.Withdraws, same, Ne.symm same]
  | updateUser u =>
    by_cases same : u.clerkUserId = subject
    · subst same
      simp [record, ProvisioningCall.Grants, ProvisioningCall.Withdraws]
    · simp [record, ProvisioningCall.Grants, ProvisioningCall.Withdraws, Ne.symm same]
  | revokeUser clerkUserId =>
    by_cases same : clerkUserId = subject
    · subst same
      simp [record, ProvisioningCall.Grants, ProvisioningCall.Withdraws]
    · simp [record, ProvisioningCall.Grants, ProvisioningCall.Withdraws, same, Ne.symm same]
  | upsertOrganization o => simp [record, ProvisioningCall.Grants, ProvisioningCall.Withdraws]

/-- Access after a list of calls: one of them granted it, and none since withdrew it. -/
theorem Directory.access_foldl (calls : List ProvisioningCall) :
    (calls.foldl record empty).access subject = some (some clerkOrgId, role) ↔
      Machine.Since (·.Grants subject clerkOrgId role) (·.Withdraws subject clerkOrgId) calls := by
  induction calls using List.reverseRecOn with
  | nil => simp [Machine.not_since_nil, access, empty]
  | append_singleton calls call ih =>
    rw [List.foldl_append, List.foldl_cons, List.foldl_nil, record_access, ih, Machine.since_snoc]

/-- Everyone the resolver finds is in an organization of the identity provider. -/
theorem Directory.record_clerkOrgId {directory : Directory}
    (inv : ∀ subject user, directory.users subject = some user → user.clerkOrgId ≠ none)
    (call : ProvisioningCall) :
    ∀ subject user, (directory.record call).users subject = some user → user.clerkOrgId ≠ none := by
  intro subject user found
  cases call with
  | syncMembership m =>
    simp only [record, Function.update_apply] at found
    split at found
    · cases found
      simp
    · exact inv subject user found
  | removeMembership ref =>
    simp only [record, Function.update_apply] at found
    split at found
    · obtain ⟨before, hBefore, rfl⟩ := Option.map_eq_some_iff.mp found
      have known := inv _ before hBefore
      split <;> exact known
    · exact inv subject user found
  | updateUser u =>
    simp only [record, Function.update_apply] at found
    split at found
    · obtain ⟨before, hBefore, rfl⟩ := Option.map_eq_some_iff.mp found
      exact inv _ before hBefore
    · exact inv subject user found
  | revokeUser clerkUserId =>
    simp only [record, Function.update_apply] at found
    split at found
    · cases found
    · exact inv subject user found
  | upsertOrganization o => exact inv subject user found

theorem Directory.foldl_clerkOrgId (calls : List ProvisioningCall) :
    ∀ subject user, (calls.foldl record empty).users subject = some user →
      user.clerkOrgId ≠ none := by
  induction calls using List.reverseRecOn with
  | nil =>
    intro subject user found
    cases found
  | append_singleton calls call ih =>
    rw [List.foldl_append, List.foldl_cons, List.foldl_nil]
    exact record_clerkOrgId ih call

theorem Directory.access_clerkOrgId (calls : List ProvisioningCall) {access : Option String × Role}
    (found : (calls.foldl record empty).access subject = some access) :
    ∃ clerkOrgId, access.1 = some clerkOrgId := by
  obtain ⟨user, hUser, same, -⟩ := access_eq_some.mp found
  exact Option.ne_none_iff_exists'.mp (same ▸ foldl_clerkOrgId calls subject user hUser)

end Access

theorem parseMembershipSync_role {data : JsValue} {m : MembershipSync}
    (read : parseMembershipSync data = .ok m) :
    m.role = mapClerkRole (stringOrEmpty data "role") := by
  simp only [parseMembershipSync, bind_eq_ok] at read
  obtain ⟨org, -, userData, -, email, -, clerkOrgId, -, orgName, -, orgSlug, -, clerkUserId, -,
    result⟩ := read
  cases result
  rfl

theorem provisioningCall_sync {event : ClerkEvent} {m : MembershipSync}
    (made : provisioningCall event = .ok (some (.syncMembership m))) :
    parseMembershipSync (.object event.data) = .ok m := by
  unfold provisioningCall at made
  dsimp only at made
  split at made
  case h_1 | h_2 =>
    obtain ⟨found, read, result⟩ := parsed_bind_eq_ok.mp made
    cases result
    exact read
  case h_9 => cases made
  all_goals
    obtain ⟨found, -, result⟩ := parsed_bind_eq_ok.mp made
    cases result

/-- What an event grants is one of two roles, whatever role the payload names. -/
theorem acceptedCalls_role {db : TenancyDatabase} {inputs : List (ProvisioningDraws × ClerkEvent)}
    {call : ProvisioningCall} {subject clerkOrgId : String} {role : Role}
    (listed : call ∈ acceptedCalls db inputs) (grants : call.Grants subject clerkOrgId role) :
    role = .admin ∨ role = .teamMember := by
  obtain ⟨visit, -, accepted⟩ := List.mem_filterMap.mp listed
  obtain ⟨m, rfl, -, -, rfl⟩ := grants
  have made : provisioningCall visit.input.2 = .ok (some (.syncMembership m)) := by
    unfold acceptedCall at accepted
    split at accepted
    · next found => rw [found, accepted]
    · cases accepted
  rw [parseMembershipSync_role (provisioningCall_sync made), mapClerkRole]
  split
  · exact .inl rfl
  · exact .inr rfl

/-- The access of a principal was granted, and stands. -/
theorem resolve_granted (inputs : List (ProvisioningDraws × ClerkEvent)) (subject : String) :
    ∀ principal, resolve (Machine.final provision .empty inputs) subject = some principal →
      ∃ clerkOrgId,
        (Machine.final provision .empty inputs).clerkOrgOf principal.organizationId =
          some clerkOrgId ∧
        Machine.Since (·.Grants subject clerkOrgId principal.role)
          (·.Withdraws subject clerkOrgId) (acceptedCalls .empty inputs) := by
  intro principal found
  have provided := final_resolved inputs subject
  rw [found, Option.map_some] at provided
  obtain ⟨⟨organization, role⟩, hAccess, same⟩ := Option.map_eq_some_iff.mp provided.symm
  obtain ⟨hOrganization, hRest⟩ := Prod.ext_iff.mp same
  obtain rfl : role = principal.role := (Prod.ext_iff.mp hRest).1
  obtain ⟨clerkOrgId, rfl⟩ := Directory.access_clerkOrgId _ hAccess
  exact ⟨clerkOrgId, hOrganization.symm, (Directory.access_foldl _).mp hAccess⟩

/-- After every history a subject has access exactly when an event that completed granted it and
none since withdrew it; the principal has the organization and the role of that event, and the role
is that of an administrator or of a team member. -/
theorem resolve_since (inputs : List (ProvisioningDraws × ClerkEvent)) (subject : String) :
    (resolve (Machine.final provision .empty inputs) subject = none ↔
      ∀ clerkOrgId role, ¬ Machine.Since (·.Grants subject clerkOrgId role)
        (·.Withdraws subject clerkOrgId) (acceptedCalls .empty inputs)) ∧
    ∀ principal, resolve (Machine.final provision .empty inputs) subject = some principal →
      ∃ clerkOrgId,
        (Machine.final provision .empty inputs).clerkOrgOf principal.organizationId =
          some clerkOrgId ∧
        Machine.Since (·.Grants subject clerkOrgId principal.role)
          (·.Withdraws subject clerkOrgId) (acceptedCalls .empty inputs) ∧
        (principal.role = .admin ∨ principal.role = .teamMember) := by
  constructor
  · rw [← Option.map_eq_none_iff, final_resolved inputs subject, Option.map_eq_none_iff,
      Option.eq_none_iff_forall_ne_some]
    constructor
    · intro none clerkOrgId role since
      exact none _ ((Directory.access_foldl _).mpr since)
    · rintro none ⟨organization, role⟩ found
      obtain ⟨clerkOrgId, rfl⟩ := Directory.access_clerkOrgId _ found
      exact none clerkOrgId role ((Directory.access_foldl _).mp found)
  · intro principal found
    obtain ⟨clerkOrgId, inOrg, since⟩ := resolve_granted inputs subject principal found
    have ⟨earlier, call, later, split, grants, _⟩ := since
    have listed : call ∈ acceptedCalls .empty inputs := split ▸ by simp
    exact ⟨clerkOrgId, inOrg, since, acceptedCalls_role listed grants⟩

/-! ### Which calls complete -/

/-- The slug is the organization's own or nobody's. -/
def Directory.SlugOpen (directory : Directory) (clerkOrgId slug : String) : Prop :=
  ∀ other name, directory.organizations other = some (name, slug) → other = clerkOrgId

/-- In the organization the email is the subject's own or nobody's, deleted users included. -/
def Directory.EmailOpen (directory : Directory) (subject : String) (clerkOrgId : Option String)
    (email : String) : Prop :=
  (∀ other user, directory.users other = some user → user.clerkOrgId = clerkOrgId →
    user.email = email → other = subject) ∧
  (clerkOrgId, email) ∉ directory.former

/-- The texts that a call has for its statements. -/
def ProvisioningCall.texts : ProvisioningCall → List String
  | .syncMembership m => m.texts
  | .removeMembership ref => [ref.clerkOrgId, ref.clerkUserId]
  | .updateUser u => [u.clerkUserId, u.email, u.displayName]
  | .revokeUser clerkUserId => [clerkUserId]
  | .upsertOrganization o => [o.clerkOrgId, o.name, o.slug]

/-- What the constraints ask of the directory for a call. -/
def Directory.Permits (directory : Directory) : ProvisioningCall → Prop
  | .syncMembership m => directory.SlugOpen m.clerkOrgId m.orgSlug ∧
    directory.EmailOpen m.clerkUserId (some m.clerkOrgId) m.email ∧
    ∀ user, directory.users m.clerkUserId = some user → user.role ≠ none →
      user.clerkOrgId = some m.clerkOrgId
  | .updateUser u => ∀ user, directory.users u.clerkUserId = some user →
    directory.EmailOpen u.clerkUserId user.clerkOrgId u.email
  | .upsertOrganization o => directory.SlugOpen o.clerkOrgId o.slug
  | .removeMembership _ | .revokeUser _ => True

/-- What a call needs in order to complete. -/
def Directory.Admits (directory : Directory) (call : ProvisioningCall) : Prop :=
  (∀ text ∈ call.texts, Storable text) ∧ directory.Permits call

open Classical in
/-- How an event is handled by the directory alone. -/
noncomputable def Directory.provision (directory : Directory) (event : ClerkEvent) :
    Handling Bool × Directory :=
  match provisioningCall event with
  | .error error => (.error error, directory)
  | .ok none => (.ok false, directory)
  | .ok (some call) =>
    if directory.Admits call then (.ok true, directory.record call)
    else (.error .statementRefused, directory)

/-- The tables that the service writes: its own memberships, and no organization that the identity
provider does not know. -/
structure Mirrored (db : TenancyDatabase) : Prop where
  orgLevelOnly : OrgLevelOnly db
  known : ∀ org ∈ db.organizations, org.externalAuthId ≠ none

section Admission

variable {draws : ProvisioningDraws} {db after : TenancyDatabase} {clerkOrgId slug subject email :
  String} {call : ProvisioningCall}

theorem upsertOrg_known {orgId name : String}
    (known : ∀ org ∈ db.organizations, org.externalAuthId ≠ none)
    (ran : upsertOrg draws db clerkOrgId name slug = .ok (orgId, after)) :
    ∀ org ∈ after.organizations, org.externalAuthId ≠ none := by
  rcases upsertOrg_cases ran with ⟨org, -, -, -, tables⟩ | ⟨-, tables⟩
  · rw [tables]
    intro row listed
    obtain ⟨before, hBefore, rfl⟩ := mem_updateWhere.mp listed
    have hKnown := known before hBefore
    split <;> exact hKnown
  · rw [tables]
    intro row listed
    rcases List.mem_append.mp listed with old | new
    · exact known row old
    · rw [List.mem_singleton.mp new]
      simp

theorem Mirrored.applied {event : ClerkEvent} (inv : Mirrored db)
    (applied : Applied draws db event after) : Mirrored after := by
  refine ⟨inv.orgLevelOnly.applied applied, ?_⟩
  cases applied with
  | synced _ ran =>
    obtain ⟨orgId, inOrg, userId, withUser, hOrg, hUser, ran⟩ := syncMembership_eq_ok.mp ran
    rw [upsertMembership_tables ran, (upsertUser_spec hUser).tables]
    exact upsertOrg_known inv.known hOrg
  | removed _ ran =>
    obtain ⟨-, ran⟩ := textParameters_bind_eq_ok.mp ran
    split at ran
    · rw [statement_eq_ok.mp ran]
      exact inv.known
    · cases ran
      exact inv.known
  | userUpdated _ ran =>
    rw [(updateUser_eq_ok.mp ran).2]
    exact inv.known
  | revoked _ ran =>
    rw [(revokeUser_eq_ok.mp ran).2]
    exact inv.known
  | orgUpserted _ ran =>
    obtain ⟨orgId, hOrg⟩ := upsertOrganization_eq_ok.mp ran
    exact upsertOrg_known inv.known hOrg
  | ignored => exact inv.known

theorem Mirrored.handle (inv : Mirrored db) (event : ClerkEvent) :
    Mirrored (handle draws db event).2 := by
  rcases handle_cases draws db event with applied | ⟨error, refused⟩
  · exact inv.applied applied
  · rw [refused]
    exact inv

theorem mirrored_empty : Mirrored .empty := ⟨orgLevelOnly_empty, nofun⟩

theorem organizations_eq_some {shown : String × String} :
    db.directory.organizations clerkOrgId = some shown ↔
      ∃ org ∈ db.organizations, org.externalAuthId = some clerkOrgId ∧
        (org.name, org.slug) = shown := by
  simp only [TenancyDatabase.directory, Option.map_eq_some_iff,
    db.keys.organizations_external_auth_id_unique.find?_eq_some, and_assoc]

theorem Mirrored.slugFree_iff (inv : Mirrored db) :
    SlugFree db clerkOrgId slug ↔ db.directory.SlugOpen clerkOrgId slug := by
  constructor
  · intro free other name found
    obtain ⟨org, listed, hExternal, same⟩ := organizations_eq_some.mp found
    have hSlug := free org listed (Prod.ext_iff.mp same).2
    exact Option.some.inj (hExternal.symm.trans hSlug)
  · rintro free org listed rfl
    obtain ⟨other, hExternal⟩ := Option.ne_none_iff_exists'.mp (inv.known org listed)
    rw [hExternal, free other org.name (organizations_eq_some.mpr ⟨org, listed, hExternal, rfl⟩)]

theorem users_eq_some_iff {shown : DirectoryUser} : db.directory.users subject = some shown ↔
    ∃ user ∈ db.users, user.externalAuthId = some subject ∧ db.directoryUser user = shown := by
  simp only [TenancyDatabase.directory, Option.map_eq_some_iff,
    db.keys.users_external_auth_id_unique.find?_eq_some, and_assoc]

/-- The directory's word for an email that the organization does not have yet. -/
theorem emailOpen_iff {organization : Option String} :
    db.directory.EmailOpen subject organization email ↔
      ∀ user ∈ db.users, db.clerkOrgOf user.organizationId = organization → user.email = email →
        user.externalAuthId = some subject := by
  constructor
  · rintro ⟨free, unheld⟩ user listed inOrg hEmail
    cases hExternal : user.externalAuthId with
    | none => exact absurd ⟨user, listed, hExternal, by rw [inOrg, hEmail]⟩ unheld
    | some other =>
      rw [free other _ (users_eq_some_iff.mpr ⟨user, listed, hExternal, rfl⟩) inOrg hEmail]
  · intro free
    constructor
    · intro other shown found inOrg hEmail
      obtain ⟨user, listed, hExternal, rfl⟩ := users_eq_some_iff.mp found
      exact Option.some.inj (hExternal.symm.trans (free user listed inOrg hEmail))
    · rintro ⟨user, listed, hExternal, same⟩
      obtain ⟨inOrg, hEmail⟩ := Prod.ext_iff.mp same
      simp [free user listed inOrg.symm hEmail.symm] at hExternal

theorem Mirrored.admissible_iff (inv : Mirrored db) {m : MembershipSync} :
    Admissible db m ↔ db.directory.Admits (.syncMembership m) := by
  have sole : (∀ user ∈ db.users, user.externalAuthId = some m.clerkUserId →
      (∀ row ∈ db.memberships, row.userId = user.id → LiesIn db row.organizationId m.clerkOrgId) ∧
      ∀ row ∈ db.projectMemberships, row.userId = user.id →
        LiesIn db row.organizationId m.clerkOrgId) ↔
      ∀ shown, db.directory.users m.clerkUserId = some shown → shown.role ≠ none →
        shown.clerkOrgId = some m.clerkOrgId := by
    constructor
    · intro settled shown found hRole
      obtain ⟨user, listed, hExternal, rfl⟩ := users_eq_some_iff.mp found
      obtain ⟨row, hRow⟩ := Option.ne_none_iff_exists'.mp (mt Option.map_eq_none_iff.mpr hRole)
      have isUser := List.find?_some hRow
      have hUser := of_decide_eq_true isUser
      have hMembership := List.mem_of_find?_eq_some hRow
      rw [directoryUser, ← db.membership_inOrg listed hMembership hUser]
      exact clerkOrgOf_eq_some.mpr ((settled user listed hExternal).1 row hMembership hUser)
    · intro settled user listed hExternal
      constructor
      · intro row hRow hUser
        rw [db.membership_inOrg listed hRow hUser]
        refine clerkOrgOf_eq_some.mp (settled _ (users_eq_some listed hExternal) ?_)
        simpa [directoryUser] using ⟨row, hRow, hUser⟩
      · simp [inv.orgLevelOnly.noProject]
  rw [Directory.Admits, Directory.Permits, ← inv.slugFree_iff, ← sole, emailOpen_iff]
  simp only [clerkOrgOf_eq_some]
  constructor
  · intro admissible
    exact ⟨admissible.storable, admissible.slugFree, admissible.emailFree, admissible.soleTenant⟩
  · rintro ⟨storable, slugFree, emailFree, soleTenant⟩
    exact ⟨storable, slugFree, emailFree, soleTenant⟩

theorem updateUser_ok_iff {u : UserUpdate} :
    (∃ after, updateUser db u = .ok after) ↔
      (∀ text ∈ [u.clerkUserId, u.email, u.displayName], Storable text) ∧
      ∀ user ∈ db.users, user.externalAuthId = some u.clerkUserId →
        ∀ other ∈ db.users, other.organizationId = user.organizationId → other.email = u.email →
          other.externalAuthId = some u.clerkUserId := by
  have single := db.keys.users_external_auth_id_unique.single
    (·.externalAuthId = some u.clerkUserId) u.clerkUserId (by simp)
  let updated := updateWhere (·.externalAuthId = some u.clerkUserId)
    (fun row => { row with email := u.email, displayName := u.displayName }) db.users
  have emails : Unique (fun row => some (row.organizationId, row.email)) updated ↔
      ∀ user ∈ db.users, user.externalAuthId = some u.clerkUserId →
        ∀ other ∈ db.users, other.organizationId = user.organizationId → other.email = u.email →
          other.externalAuthId = some u.clerkUserId := by
    rw [unique_updateWhere db.keys.users_org_email_unique single]
    constructor
    · intro free user listed hExternal other hOther inOrg hEmail
      by_contra different
      exact free user listed (by simpa using hExternal) _ rfl other hOther
        (by simpa using different) (by rw [inOrg, hEmail])
    · rintro free user listed isSelected k hKey other hOther unselected clash
      obtain ⟨inOrg, hEmail⟩ := Prod.ext_iff.mp (Option.some.inj (clash.trans hKey.symm))
      have same := free user listed (by simpa using isSelected) other hOther inOrg hEmail
      simp [same] at unselected
  simp only [updateUser, textParameters_bind_eq_ok, exists_and_left, statement_ok_iff, ← emails]
  refine and_congr_right fun storable => ?_
  constructor
  · intro valid
    exact valid.1.users_org_email_unique
  · intro unique
    have pkey : Unique (some ·.id) updated := db.keys.users_pkey.updateWhere fun _ => rfl
    have external : Unique (·.externalAuthId) updated :=
      db.keys.users_external_auth_id_unique.updateWhere fun _ => rfl
    have organizations : Refers (some ·.organizationId) updated (·.id) db.organizations :=
      db.references.users_organization_id_fk.updateWhere fun _ => rfl
    have ids : db.users.map (·.id) ⊆ updated.map (·.id) := subset_map_updateWhere fun _ => rfl
    have pairs : db.users.map (fun user => (user.organizationId, user.id)) ⊆
        updated.map fun user => (user.organizationId, user.id) :=
      subset_map_updateWhere fun _ => rfl
    have texts : ∀ row ∈ updated, ∀ text ∈ row.texts, Storable text := by
      refine storable_updateWhere db.texts.users fun row text given => ?_
      rcases List.mem_append.mp given with written | kept
      · exact .inl (storable text (List.mem_cons_of_mem _ written))
      · exact .inr (List.mem_append_right _ kept)
    exact ⟨db.keys.withUsers pkey unique external,
      db.references.withUsers organizations ids (db.references.memberships_org_user_fk.mono pairs)
        (db.references.project_memberships_org_user_fk.mono pairs), db.texts.organizations, texts⟩

/-- Organizations that the identity provider knows under one id are one. -/
theorem Mirrored.clerkOrgOf_inj (inv : Mirrored db) {user other : UserRow}
    (listed : user ∈ db.users)
    (same : db.clerkOrgOf other.organizationId = db.clerkOrgOf user.organizationId) :
    other.organizationId = user.organizationId := by
  obtain ⟨org, hOrg, hId⟩ := List.mem_map.mp
    (refers_iff.mp db.references.users_organization_id_fk user listed _ rfl)
  obtain ⟨clerkOrgId, hExternal⟩ := Option.ne_none_iff_exists'.mp (inv.known org hOrg)
  rw [clerkOrgOf_eq_some.mpr ⟨org, hOrg, hId, hExternal⟩] at same
  obtain ⟨other', hOther, hId', hExternal'⟩ := clerkOrgOf_eq_some.mp same
  rw [← hId', ← hId, db.keys.organizations_external_auth_id_unique.eq hOther hOrg hExternal'
    hExternal]

/-- A call completes exactly when the directory admits it. -/
theorem Mirrored.run_ok_iff (inv : Mirrored db) (fresh : draws.Fresh db) :
    (∃ after, call.run draws db = .ok after) ↔ db.directory.Admits call := by
  cases call with
  | syncMembership m => exact (syncMembership_ok_iff fresh).trans inv.admissible_iff
  | removeMembership ref =>
    simp only [ProvisioningCall.run, Donna.removeMembership, textParameters_bind_eq_ok,
      exists_and_left]
    refine and_congr_right fun _ => ⟨fun _ => trivial, fun _ => ?_⟩
    split
    · exact delete_memberships_succeeds db _
    · exact ⟨db, rfl⟩
  | updateUser u =>
    refine updateUser_ok_iff.trans (and_congr_right fun _ => ?_)
    simp only [Directory.Permits, emailOpen_iff]
    constructor
    · intro free shown found
      obtain ⟨user, listed, hExternal, rfl⟩ := users_eq_some_iff.mp found
      intro other hOther inOrg hEmail
      exact free user listed hExternal other hOther (inv.clerkOrgOf_inj listed inOrg) hEmail
    · intro free user listed hExternal other hOther inOrg hEmail
      exact free _ (users_eq_some listed hExternal) other hOther (by rw [inOrg]; rfl) hEmail
  | revokeUser clerkUserId =>
    constructor
    · rintro ⟨after, ran⟩
      exact ⟨List.forall_mem_singleton.mpr (revokeUser_eq_ok.mp ran).1, trivial⟩
    · rintro ⟨storable, -⟩
      exact revokeUser_succeeds db (List.forall_mem_singleton.mp storable)
  | upsertOrganization o =>
    exact (upsertOrganization_ok_iff fresh.orgId).trans
      (and_congr_right fun _ => inv.slugFree_iff)

theorem ProvisioningCall.run_eq_error {error : ProvisioningError}
    (ran : call.run draws db = .error error) : error = .statementRefused := by
  cases call with
  | syncMembership m => exact syncMembership_eq_error ran
  | removeMembership ref =>
    refine textParameters_bind_eq_error ran fun ran => ?_
    split at ran
    · exact statement_eq_error ran
    · cases ran
  | updateUser u | revokeUser clerkUserId =>
    exact textParameters_bind_eq_error ran statement_eq_error
  | upsertOrganization o => exact upsertOrganization_eq_error ran

/-- One event is handled as the directory handles it. -/
theorem Mirrored.provision_directory (inv : Mirrored db) (input : ProvisioningDraws × ClerkEvent)
    (fresh : input.1.Fresh db) :
    ((provision db input).1, (provision db input).2.directory) =
      db.directory.provision input.2 := by
  rw [provision, handle_eq, Directory.provision]
  cases provisioningCall input.2 with
  | error error => rfl
  | ok found =>
    cases found with
    | none => rfl
    | some call =>
      dsimp only
      cases ran : call.run input.1 db with
      | ok after =>
        rw [if_pos ((inv.run_ok_iff fresh).mp ⟨after, ran⟩),
          ProvisioningCall.run_directory inv.orgLevelOnly ran]
      | error error =>
        obtain rfl := ProvisioningCall.run_eq_error ran
        rw [if_neg fun admits => ?_]
        obtain ⟨after, ran'⟩ := (inv.run_ok_iff fresh).mpr admits
        simp [ran] at ran'

/-- The random ids of a history, each new to the tables when it is drawn. -/
def DrawnFresh (inputs : List (ProvisioningDraws × ClerkEvent)) : Prop :=
  ∀ visit ∈ Machine.visits provision .empty inputs, visit.input.1.Fresh visit.before

instance (draws : ProvisioningDraws) (db : TenancyDatabase) : Decidable (draws.Fresh db) :=
  decidable_of_iff ((∀ org ∈ db.organizations, org.id ≠ draws.orgId) ∧
      (∀ user ∈ db.users, user.id ≠ draws.userId) ∧
      ∀ row ∈ db.memberships, row.id ≠ draws.membershipId)
    ⟨fun parts => ⟨parts.1, parts.2.1, parts.2.2⟩,
      fun fresh => ⟨fresh.orgId, fresh.userId, fresh.membershipId⟩⟩

instance (inputs : List (ProvisioningDraws × ClerkEvent)) : Decidable (DrawnFresh inputs) :=
  inferInstanceAs (Decidable (∀ visit ∈ _, _))

/-- A history is answered as the directory answers its events, and leaves the tables that hold the
directory which it leaves. -/
theorem visits_directory {inputs : List (ProvisioningDraws × ClerkEvent)}
    (fresh : DrawnFresh inputs) :
    (Machine.visits provision .empty inputs).map (·.output) =
        (Machine.visits Directory.provision .empty (inputs.map (·.2))).map (·.output) ∧
      (Machine.final provision .empty inputs).directory =
        Machine.final Directory.provision .empty (inputs.map (·.2)) := by
  rw [← directory_empty]
  have preserved : ∀ db (input : ProvisioningDraws × ClerkEvent), Mirrored db →
      Mirrored (provision db input).2 := fun _ input inv => inv.handle input.2
  exact Machine.simulates TenancyDatabase.directory Prod.snd preserved
    (fun _ input inv fresh => inv.provision_directory input fresh) mirrored_empty inputs fresh

end Admission

/-- Two histories of the same events that each draw new ids answer them alike, and give everyone
access to the same organization with the same role. -/
theorem provision_draws_irrelevant (inputs inputs' : List (ProvisioningDraws × ClerkEvent))
    (same : inputs.map (·.2) = inputs'.map (·.2)) (fresh : DrawnFresh inputs)
    (fresh' : DrawnFresh inputs') :
    (Machine.visits provision .empty inputs).map (·.output) =
        (Machine.visits provision .empty inputs').map (·.output) ∧
      ∀ subject, (resolve (Machine.final provision .empty inputs) subject).map
          (Machine.final provision .empty inputs).provided =
        (resolve (Machine.final provision .empty inputs') subject).map
          (Machine.final provision .empty inputs').provided := by
  obtain ⟨answers, directory⟩ := visits_directory fresh
  obtain ⟨answers', directory'⟩ := visits_directory fresh'
  constructor
  · rw [answers, answers', same]
  · intro subject
    rw [(orgLevelOnly_final inputs).resolve_provided, (orgLevelOnly_final inputs').resolve_provided,
      directory, directory', same]

/-- Jo joins two organizations, and the second is refused under either order of the ids. -/
theorem provision_draws_irrelevant_joins :
    (Machine.visits provision .empty
        [(firstDraws, joins acmeMember), (secondDraws, joins globexMember)]).map (·.output) =
      (Machine.visits provision .empty
        [(secondDraws, joins acmeMember), (firstDraws, joins globexMember)]).map (·.output) :=
  (provision_draws_irrelevant
    [(firstDraws, joins acmeMember), (secondDraws, joins globexMember)]
    [(secondDraws, joins acmeMember), (firstDraws, joins globexMember)] rfl (by decide)
    (by decide)).1

end Donna
