import Donna.Base.Machine
import Donna.Base.OrderBy
import Donna.ControlPlane.Constitutions

/-! The service of business constitutions when each call is atomic: it implements a register for
each organization that holds the constitution approved last.  The query for it orders by version
and not by the time of approval; that it finds the right row rests on there being no other approved
one.  The rules come back as they were proposed, but for their structured values, of which the table
keeps the JSON. -/

namespace Donna

open Js

/-! ### Atomic calls -/

/-- The committed rows of the two tables. -/
structure ConstitutionTables where
  constitutions : List ConstitutionRow := []
  rules : List ConstitutionRuleRow := []

inductive ConstitutionCall
  | propose (call : ProposeCall)
  | approve (call : ApproveCall)

def ConstitutionCall.organizationId : ConstitutionCall → String
  | .propose call => call.organizationId
  | .approve call => call.organizationId

/-- A call, and whether the database refuses one of its writes: for a foreign key to an organization
or a user, say, or a value out of the range of its column. -/
structure ConstitutionRequest where
  call : ConstitutionCall
  refused : Bool

section Columns

variable (uuid : UuidType)

/-- A proposal with its ids as their columns read them. -/
def ProposeCall.read (call : ProposeCall) : Except Thrown ProposeCall := do
  let organizationId ← uuidColumn uuid call.organizationId
  let proposedByUserId ← uuidColumn uuid call.proposedByUserId
  pure { call with organizationId := organizationId, proposedByUserId := proposedByUserId }

/-- An approval with the ids of its query as their columns read them. -/
def ApproveCall.read (call : ApproveCall) : Except Thrown ApproveCall := do
  let organizationId ← uuidColumn uuid call.organizationId
  let constitutionId ← uuidColumn uuid call.constitutionId
  pure { call with organizationId := organizationId, constitutionId := constitutionId }

end Columns

namespace ConstitutionTables

variable (tables : ConstitutionTables)

def propose (call : ProposeCall) (refused : Bool) : CallOutcome × ConstitutionTables :=
  let row := call.row (nextVersion tables.constitutions call.organizationId)
  if refused || tables.constitutions.any (clashes row) then (.failed, tables)
  else
    match call.rules.mapM call.ruleRow with
    | .error _ => (.failed, tables)
    | .ok insertedRules => (.returned (some ⟨some row, insertedRules⟩),
      { constitutions := tables.constitutions ++ [row], rules := tables.rules ++ insertedRules })

def isApproved (organizationId : String) (row : ConstitutionRow) : Bool :=
  row.organizationId = organizationId && row.status = .approved

def supersede (call : ApproveCall) (row : ConstitutionRow) : ConstitutionRow :=
  { row with status := .superseded, updatedAt := call.supersededAt }

def isRuleOf (organizationId constitutionId : String) (rule : ConstitutionRuleRow) : Bool :=
  rule.organizationId = organizationId && rule.constitutionId = constitutionId

/-- The two updates of an approval. -/
def approved (call : ApproveCall) : List ConstitutionRow :=
  Tables.updateWhere (ConstitutionWorld.isCandidate call) (ConstitutionWorld.markApproved call)
    (Tables.updateWhere (isApproved call.organizationId) (supersede call) tables.constitutions)

/-- The transaction of an approval.  The approver's id is read by the second update. -/
def approve (uuid : UuidType) (call : ApproveCall) (refused : Bool) :
    CallOutcome × ConstitutionTables :=
  match tables.constitutions.find? fun row =>
      ConstitutionWorld.isCandidate call row && row.status = .proposed with
  | none => (.returned none, tables)
  | some _ =>
    match uuidColumn uuid call.approvedByUserId with
    | .error _ => (.failed, tables)
    | .ok approvedByUserId =>
      if refused then (.failed, tables)
      else
        let call := { call with approvedByUserId := approvedByUserId }
        let activeRules := tables.rules.filter (isRuleOf call.organizationId call.constitutionId)
        (.returned (some ⟨(tables.approved call).find? (ConstitutionWorld.isCandidate call),
          activeRules⟩), { tables with constitutions := tables.approved call })

def step (uuid : UuidType) (tables : ConstitutionTables) (request : ConstitutionRequest) :
    CallOutcome × ConstitutionTables :=
  match request.call with
  | .propose call =>
    match call.read uuid with
    | .error _ => (.failed, tables)
    | .ok call => tables.propose call request.refused
  | .approve call =>
    if call.actorKind ≠ .human then (.returned none, tables)
    else
      match call.read uuid with
      | .error _ => (.failed, tables)
      | .ok call => tables.approve uuid call request.refused

/-- What the queries of `getActive` can find for the organization with this id: the approved row
that comes first in falling order of versions, and its rules in any order. -/
def FindsActive (organizationId : String) (result : Option ConstitutionProposal) : Prop :=
  ∃ ordered, OrderedBy (fun row => -row.version)
      (tables.constitutions.filter (isApproved organizationId)) ordered ∧
    match ordered with
    | [] => result = none
    | constitution :: _ => ∃ activeRules,
        activeRules.Perm (tables.rules.filter (isRuleOf organizationId constitution.id)) ∧
          result = some ⟨some constitution, activeRules⟩

/-- An answer of `getActive` to the text of an id. -/
def GetActive (uuid : UuidType) (organizationId : String)
    (answer : Except Thrown (Option ConstitutionProposal)) : Prop :=
  match uuidColumn uuid organizationId with
  | .error error => answer = .error error
  | .ok id => ∃ result, tables.FindsActive id result ∧ answer = .ok result

end ConstitutionTables

/-! ### The register -/

open ConstitutionTables

abbrev ConstitutionVisit := Machine.Visit ConstitutionTables ConstitutionRequest CallOutcome

section Register

variable (uuid : UuidType)

/-- The proposal that a visit made. -/
def proposalOf (visit : ConstitutionVisit) : Option ProposeCall :=
  match visit.input.call, visit.output with
  | .propose call, .returned (some _) => (call.read uuid).toOption
  | _, _ => none

/-- What an approval returned, unless it was null, with its organization. -/
def approvalOf (visit : ConstitutionVisit) : Option (String × ConstitutionProposal) :=
  match visit.input.call, visit.output with
  | .approve call, .returned (some proposal) =>
    (call.read uuid).toOption.map fun call => (call.organizationId, proposal)
  | _, _ => none

/-- The proposals of an organization, in order. -/
def proposals (organizationId : String) (visits : List ConstitutionVisit) : List ProposeCall :=
  (visits.filterMap (proposalOf uuid)).filter (·.organizationId = organizationId)

/-- The approval of an organization's that came last. -/
def lastApproval (organizationId : String) (visits : List ConstitutionVisit) :
    Option ConstitutionProposal :=
  ((visits.filterMap (approvalOf uuid)).filter (·.1 = organizationId)).getLast?.map (·.2)

def rowsOf (organizationId : String) (tables : ConstitutionTables) : List ConstitutionRow :=
  tables.constitutions.filter (·.organizationId = organizationId)

/-- A status that a constitution of the given status may have after a call. -/
def StatusMoves (before after : ConstitutionStatus) : Prop :=
  after = before ∨ before = .proposed ∧ after = .approved ∨ before = .approved ∧ after = .superseded

/-- The call is an approval that is to return null: by an agent or a system, of another
organization's constitution or an unknown one, or of one that is not proposed. -/
def ApproveCall.Futile (call : ApproveCall) (tables : ConstitutionTables) : Prop :=
  call.actorKind ≠ .human ∨ ∃ ids, call.read uuid = .ok ids ∧
    ((∀ row ∈ tables.constitutions, row.id = ids.constitutionId →
      row.organizationId ≠ ids.organizationId) ∨
    ∃ row ∈ tables.constitutions, row.id = ids.constitutionId ∧ row.status ≠ .proposed)

/-- The call asks with an id that its column cannot read. -/
def ConstitutionCall.Unreadable : ConstitutionCall → Prop
  | .propose call => ∃ error, call.read uuid = .error error
  | .approve call => call.actorKind = .human ∧ ∃ error, call.read uuid = .error error

/-- The calls so far have implemented a register of the active constitution of each organization,
in which a rule that is proposed comes back as `expected`. -/
structure ActiveRegister
    (expected : ProposeCall → ConstitutionRuleInput → Except Thrown ConstitutionRuleRow)
    (visits : List ConstitutionVisit) (tables : ConstitutionTables) : Prop where
  versions : ∀ organizationId,
    (rowsOf organizationId tables).map (fun row => (row.id, row.version)) =
      (proposals uuid organizationId visits).mapIdx fun index call => (call.id, (index : ℤ) + 1)
  statuses : ∀ visit ∈ visits, ∀ after ∈ visit.after.constitutions,
    (∃ before ∈ visit.before.constitutions, before.id = after.id ∧
      StatusMoves before.status after.status) ∨
    (∀ before ∈ visit.before.constitutions, before.id ≠ after.id) ∧ after.status = .proposed
  kept : ∀ visit ∈ visits, ∀ before ∈ visit.before.constitutions,
    ∃ after ∈ visit.after.constitutions, after.id = before.id
  answers : ∀ organizationId, ∃ answer, tables.GetActive uuid organizationId answer
  active : ∀ organizationId id answer, uuid.read organizationId = some id →
    tables.GetActive uuid organizationId answer →
    match lastApproval uuid id visits with
    | none => answer = .ok none
    | some approval => ∃ proposal ∈ proposals uuid id visits,
        ∃ constitution activeRules rules,
          approval.constitution = some constitution ∧ constitution.id = proposal.id ∧
            proposal.rules.mapM (expected proposal) = .ok rules ∧ activeRules.Perm rules ∧
              answer = .ok (some ⟨some constitution, activeRules⟩)
  unread : ∀ organizationId answer, uuid.read organizationId = none →
    tables.GetActive uuid organizationId answer → answer = .error invalidTextRepresentation
  futile : ∀ visit ∈ visits, ∀ call, visit.input.call = .approve call →
    call.Futile uuid visit.before → visit.output = .returned none ∧ visit.after = visit.before
  unreadable : ∀ visit ∈ visits, visit.input.call.Unreadable uuid → visit.output = .failed
  failed : ∀ visit ∈ visits, visit.output = .failed → visit.after = visit.before
  tenancy : ∀ visit ∈ visits, ∀ other,
    uuid.read visit.input.call.organizationId ≠ some other →
      rowsOf other visit.after = rowsOf other visit.before ∧
        visit.after.rules.filter (·.organizationId = other) =
          visit.before.rules.filter (·.organizationId = other)

end Register

/-! ### What every call keeps -/

/-- What the tables hold after the visits that led to them. -/
structure Registered (uuid : UuidType) (visits : List ConstitutionVisit)
    (tables : ConstitutionTables) : Prop where
  primaryKey : Tables.Unique (some ·.id) tables.constitutions
  versions : ∀ organizationId,
    (rowsOf organizationId tables).map (fun row => (row.id, row.version)) =
      (proposals uuid organizationId visits).mapIdx fun index call => (call.id, (index : ℤ) + 1)
  approved : ∀ organizationId, tables.constitutions.filter (isApproved organizationId) =
    ((lastApproval uuid organizationId visits).bind (·.constitution)).toList
  answered : ∀ organizationId approval, lastApproval uuid organizationId visits = some approval →
    approval.constitution ≠ none
  rules : ∀ call ∈ visits.filterMap (proposalOf uuid), call.rules.mapM call.ruleRow =
    .ok (tables.rules.filter (isRuleOf call.organizationId call.id))
  referenced : ∀ rule ∈ tables.rules, ∃ row ∈ tables.constitutions, row.id = rule.constitutionId

section Lists

variable {uuid : UuidType} {visits : List ConstitutionVisit} {visit : ConstitutionVisit}
  {organizationId : String}

/-- The next version after the versions from one on. -/
theorem nextVersion_eq {rows : List ConstitutionRow} {count : ℕ}
    (versions : (rows.filter (·.organizationId = organizationId)).map (·.version) =
      (List.range count).map fun index : ℕ => (index : ℤ) + 1) :
    nextVersion rows organizationId = count + 1 := by
  rw [nextVersion, versions]
  cases count with
  | zero => rfl
  | succ count =>
    have top : ((List.range (count + 1)).map fun index : ℕ => (index : ℤ) + 1).max? =
        some ((count : ℤ) + 1) := by
      rw [List.max?_eq_some_iff]
      constructor
      · exact List.mem_map.mpr ⟨count, by simp, rfl⟩
      · intro version listed
        obtain ⟨index, below, rfl⟩ := List.mem_map.mp listed
        have := List.mem_range.mp below
        omega
    rw [top]
    push_cast
    rfl

theorem proposals_snoc : proposals uuid organizationId (visits ++ [visit]) =
    proposals uuid organizationId visits ++ proposals uuid organizationId [visit] := by
  simp [proposals]

theorem lastApproval_of_none (other : approvalOf uuid visit = none) :
    lastApproval uuid organizationId (visits ++ [visit]) =
      lastApproval uuid organizationId visits := by
  simp [lastApproval, other]

theorem lastApproval_self {proposal : ConstitutionProposal}
    (answered : approvalOf uuid visit = some (organizationId, proposal)) :
    lastApproval uuid organizationId (visits ++ [visit]) = some proposal := by
  simp [lastApproval, answered]

theorem lastApproval_ne {other : String} {proposal : ConstitutionProposal}
    (answered : approvalOf uuid visit = some (organizationId, proposal))
    (differ : other ≠ organizationId) :
    lastApproval uuid other (visits ++ [visit]) = lastApproval uuid other visits := by
  simp [lastApproval, answered, differ.symm]

end Lists

section Calls

variable {uuid : UuidType} {visits : List ConstitutionVisit} {visit : ConstitutionVisit}
  {tables : ConstitutionTables}

theorem Registered.start : Registered uuid [] {} where
  primaryKey := List.nodup_nil
  versions _ := rfl
  approved _ := rfl
  answered _ _ last := by cases last
  rules _ listed := absurd listed List.not_mem_nil
  referenced _ listed := absurd listed List.not_mem_nil

/-- A visit that changes nothing and answers nothing. -/
theorem Registered.idle (registered : Registered uuid visits tables)
    (unproposed : proposalOf uuid visit = none) (unapproved : approvalOf uuid visit = none) :
    Registered uuid (visits ++ [visit]) tables := by
  refine ⟨registered.primaryKey, fun organizationId => ?_, fun organizationId => ?_,
    fun organizationId => ?_, ?_, registered.referenced⟩
  · have unchanged : proposals uuid organizationId [visit] = [] := by simp [proposals, unproposed]
    rw [proposals_snoc, unchanged, List.append_nil]
    exact registered.versions organizationId
  · rw [lastApproval_of_none unapproved]
    exact registered.approved organizationId
  · rw [lastApproval_of_none unapproved]
    exact registered.answered organizationId
  · rw [List.filterMap_append, List.filterMap_cons_none unproposed, List.filterMap_nil,
      List.append_nil]
    exact registered.rules

/-- The ids of an organization's rows are those of its proposals. -/
theorem Registered.ids (registered : Registered uuid visits tables) (organizationId : String) :
    (rowsOf organizationId tables).map (·.id) =
      (proposals uuid organizationId visits).map (·.id) := by
  have pairs := congrArg (List.map Prod.fst) (registered.versions organizationId)
  rw [List.map_map] at pairs
  exact pairs.trans (List.ext_getElem (by simp) (by simp))

theorem Registered.nextVersion_eq (registered : Registered uuid visits tables)
    (organizationId : String) :
    nextVersion tables.constitutions organizationId =
      (proposals uuid organizationId visits).length + 1 := by
  have pairs := congrArg (List.map Prod.snd) (registered.versions organizationId)
  rw [List.map_map] at pairs
  exact Donna.nextVersion_eq (pairs.trans (List.ext_getElem (by simp) (by simp)))

/-- The row of a proposal. -/
theorem Registered.row_of_proposal (registered : Registered uuid visits tables) {call : ProposeCall}
    (listed : call ∈ visits.filterMap (proposalOf uuid)) :
    ∃ row ∈ tables.constitutions, row.id = call.id := by
  have mine : call ∈ proposals uuid call.organizationId visits := by simp [proposals, listed]
  have listedId : call.id ∈ (rowsOf call.organizationId tables).map (·.id) := by
    rw [registered.ids]
    exact List.mem_map_of_mem mine
  obtain ⟨row, hRow, same⟩ := List.mem_map.mp listedId
  exact ⟨row, (List.mem_filter.mp hRow).1, same⟩

theorem ProposeCall.ruleRow_eq_ok {call : ProposeCall} {input : ConstitutionRuleInput}
    {rule : ConstitutionRuleRow} (stored : call.ruleRow input = .ok rule) :
    rule.organizationId = call.organizationId ∧ rule.constitutionId = call.id := by
  obtain ⟨value, -, result⟩ := bind_eq_ok.mp stored
  cases result
  exact ⟨rfl, rfl⟩

/-- The rows of the rules of a proposal are its own. -/
theorem ProposeCall.rules_own {call : ProposeCall} {rules : List ConstitutionRuleRow}
    (stored : call.rules.mapM call.ruleRow = .ok rules) :
    ∀ rule ∈ rules, rule.organizationId = call.organizationId ∧ rule.constitutionId = call.id := by
  generalize call.rules = inputs at stored
  induction inputs generalizing rules with
  | nil =>
    cases stored
    simp
  | cons input rest ih =>
    simp only [List.mapM_cons, bind_eq_ok] at stored
    obtain ⟨first, hFirst, later, hLater, result⟩ := stored
    cases result
    exact List.forall_mem_cons.mpr ⟨ProposeCall.ruleRow_eq_ok hFirst, ih hLater⟩

theorem ProposeCall.rules_of_self {call : ProposeCall} {rules : List ConstitutionRuleRow}
    (stored : call.rules.mapM call.ruleRow = .ok rules) :
    rules.filter (isRuleOf call.organizationId call.id) = rules := by
  refine List.filter_eq_self.mpr fun rule listed => ?_
  obtain ⟨organization, constitution⟩ := ProposeCall.rules_own stored rule listed
  simp [isRuleOf, organization, constitution]

theorem ProposeCall.rules_of_other {call : ProposeCall} {rules : List ConstitutionRuleRow}
    (stored : call.rules.mapM call.ruleRow = .ok rules) {organizationId id : String}
    (other : call.id ≠ id) : rules.filter (isRuleOf organizationId id) = [] := by
  refine List.filter_eq_nil_iff.mpr fun rule listed mine => other ?_
  rw [← (ProposeCall.rules_own stored rule listed).2]
  exact of_decide_eq_true (Bool.and_eq_true_iff.mp mine).2

/-- An id that no constitution has is no rule's. -/
theorem Registered.rules_of_fresh (registered : Registered uuid visits tables)
    {organizationId id : String}
    (fresh : ∀ row ∈ tables.constitutions, row.id ≠ id) :
    tables.rules.filter (isRuleOf organizationId id) = [] := by
  refine List.filter_eq_nil_iff.mpr fun rule listed mine => ?_
  obtain ⟨row, hRow, same⟩ := registered.referenced rule listed
  exact fresh row hRow (same.trans (of_decide_eq_true (Bool.and_eq_true_iff.mp mine).2))

theorem Registered.propose (registered : Registered uuid visits tables) {call : ProposeCall}
    {rules : List ConstitutionRuleRow} (stored : call.rules.mapM call.ruleRow = .ok rules)
    (proposed : proposalOf uuid visit = some call) (unapproved : approvalOf uuid visit = none)
    (free : tables.constitutions.any
      (clashes (call.row (nextVersion tables.constitutions call.organizationId))) = false) :
    Registered uuid (visits ++ [visit]) {
      constitutions := tables.constitutions ++
        [call.row (nextVersion tables.constitutions call.organizationId)]
      rules := tables.rules ++ rules } := by
  have fresh : ∀ row ∈ tables.constitutions, row.id ≠ call.id := by
    intro row listed same
    have apart := List.any_eq_false.mp free row listed
    simp [clashes, ProposeCall.row, same] at apart
  have ofOther : ∀ other, other ≠ call.organizationId → proposals uuid other [visit] = [] := by
    intro other differ
    simp [proposals, proposed, differ.symm]
  have ofOwn : proposals uuid call.organizationId [visit] = [call] := by
    simp [proposals, proposed]
  refine ⟨?_, fun organizationId => ?_, fun organizationId => ?_, fun organizationId => ?_, ?_, ?_⟩
  · rw [Tables.unique_insert]
    refine ⟨registered.primaryKey, fun id own row listed same => ?_⟩
    exact fresh row listed (Option.some.inj (same.trans own.symm))
  · rw [proposals_snoc, rowsOf, List.filter_append, List.map_append]
    by_cases own : organizationId = call.organizationId
    · subst own
      rw [ofOwn, List.mapIdx_concat, ← registered.versions, registered.nextVersion_eq]
      simp [rowsOf, ProposeCall.row]
    · rw [ofOther _ own, List.append_nil, ← registered.versions]
      simp [rowsOf, ProposeCall.row, Ne.symm own]
  · rw [lastApproval_of_none unapproved, ← registered.approved, List.filter_append]
    simp [isApproved, ProposeCall.row]
  · rw [lastApproval_of_none unapproved]
    exact registered.answered organizationId
  · intro other listed
    rw [List.filterMap_append] at listed
    rw [List.filter_append]
    rcases List.mem_append.mp listed with earlier | now
    · obtain ⟨row, hRow, same⟩ := registered.row_of_proposal earlier
      rw [registered.rules other earlier, ProposeCall.rules_of_other stored fun mine =>
        fresh row hRow (same.trans mine.symm), List.append_nil]
    · obtain rfl : other = call := by simpa [proposed] using now
      rw [stored, registered.rules_of_fresh fresh, ProposeCall.rules_of_self stored,
        List.nil_append]
  · intro rule listed
    rcases List.mem_append.mp listed with earlier | now
    · obtain ⟨row, hRow, same⟩ := registered.referenced rule earlier
      exact ⟨row, List.mem_append_left _ hRow, same⟩
    · exact ⟨_, List.mem_append_right _ (List.mem_singleton_self _),
        (ProposeCall.rules_own stored rule now).2.symm⟩

/-- What the two updates of an approval make of a row. -/
def ApproveCall.after (call : ApproveCall) (row : ConstitutionRow) : ConstitutionRow :=
  if ConstitutionWorld.isCandidate call row then ConstitutionWorld.markApproved call
    (if isApproved call.organizationId row then supersede call row else row)
  else if isApproved call.organizationId row then supersede call row else row

theorem approved_eq_map (call : ApproveCall) :
    tables.approved call = tables.constitutions.map call.after := by
  rw [ConstitutionTables.approved, Tables.updateWhere, Tables.updateWhere, List.map_map]
  refine List.map_congr_left fun row _ => ?_
  have keeps : ConstitutionWorld.isCandidate call (supersede call row) =
      ConstitutionWorld.isCandidate call row := rfl
  by_cases old : isApproved call.organizationId row = true <;>
    simp [ApproveCall.after, old, keeps]

theorem ApproveCall.after_keeps (call : ApproveCall) (row : ConstitutionRow) :
    (call.after row).id = row.id ∧ (call.after row).organizationId = row.organizationId ∧
      (call.after row).version = row.version := by
  unfold ApproveCall.after
  split <;> split <;> exact ⟨rfl, rfl, rfl⟩

theorem ApproveCall.after_of_other {call : ApproveCall} {row : ConstitutionRow}
    (other : row.organizationId ≠ call.organizationId) : call.after row = row := by
  simp [ApproveCall.after, ConstitutionWorld.isCandidate, isApproved, other]

theorem ApproveCall.isApproved_after (call : ApproveCall) (row : ConstitutionRow) :
    isApproved call.organizationId (call.after row) = ConstitutionWorld.isCandidate call row := by
  by_cases old : isApproved call.organizationId row = true <;>
    by_cases candidate : ConstitutionWorld.isCandidate call row = true
  all_goals simp only [ApproveCall.after, old, candidate, if_true, Bool.false_eq_true, if_false]
  all_goals simp_all [isApproved, ConstitutionWorld.isCandidate, supersede,
    ConstitutionWorld.markApproved]

/-- A query by what an approval keeps finds the rows that it found before. -/
theorem filter_approved (call : ApproveCall) {keep : ConstitutionRow → Bool}
    (keeps : ∀ row, keep (call.after row) = keep row) :
    (tables.approved call).filter keep = (tables.constitutions.filter keep).map call.after := by
  rw [approved_eq_map, List.filter_map]
  exact congrArg _ (List.filter_congr fun row _ => keeps row)

/-- The id is the primary key, so an approval has one candidate. -/
theorem Registered.filter_candidate (registered : Registered uuid visits tables)
    {call : ApproveCall} {candidate : ConstitutionRow} (listed : candidate ∈ tables.constitutions)
    (isCandidate : ConstitutionWorld.isCandidate call candidate = true) :
    tables.constitutions.filter (ConstitutionWorld.isCandidate call) = [candidate] := by
  apply registered.primaryKey.filter_eq_singleton (k := call.constitutionId) listed isCandidate
  intro other _ kept
  exact congrArg some (of_decide_eq_true (Bool.and_eq_true_iff.mp kept).2)

theorem Registered.find_candidate (registered : Registered uuid visits tables) {call : ApproveCall}
    {candidate : ConstitutionRow} (listed : candidate ∈ tables.constitutions)
    (isCandidate : ConstitutionWorld.isCandidate call candidate = true) :
    (tables.approved call).find? (ConstitutionWorld.isCandidate call) =
      some (call.after candidate) := by
  rw [← List.head?_filter, filter_approved call, registered.filter_candidate listed isCandidate]
  · rfl
  · simp [ConstitutionWorld.isCandidate, call.after_keeps]

theorem Registered.approve (registered : Registered uuid visits tables) {call : ApproveCall}
    {activeRules : List ConstitutionRuleRow} (unproposed : proposalOf uuid visit = none)
    (answered : approvalOf uuid visit = some (call.organizationId,
      ⟨(tables.approved call).find? (ConstitutionWorld.isCandidate call), activeRules⟩))
    {candidate : ConstitutionRow} (listed : candidate ∈ tables.constitutions)
    (isCandidate : ConstitutionWorld.isCandidate call candidate = true) :
    Registered uuid (visits ++ [visit]) { tables with constitutions := tables.approved call } := by
  have keeps := call.after_keeps
  have only := registered.filter_candidate listed isCandidate
  have found := registered.find_candidate listed isCandidate
  rw [found] at answered
  refine ⟨?_, fun organizationId => ?_, fun organizationId => ?_, fun organizationId => ?_, ?_, ?_⟩
  · have same : ((fun row : ConstitutionRow => some row.id) ∘ call.after) =
        fun row => some row.id := funext fun row => congrArg some (keeps row).1
    rw [Tables.Unique, approved_eq_map, List.filterMap_map, same]
    exact registered.primaryKey
  · have none : proposals uuid organizationId [visit] = [] := by simp [proposals, unproposed]
    rw [proposals_snoc, none, List.append_nil, ← registered.versions, rowsOf, filter_approved call]
    · simp [rowsOf, keeps]
    · simp [keeps]
  · by_cases own : organizationId = call.organizationId
    · -- The candidate is the one row that is approved now.
      subst own
      rw [lastApproval_self answered, approved_eq_map, List.filter_map]
      have candidates : tables.constitutions.filter
          (isApproved call.organizationId ∘ call.after) = [candidate] := by
        rw [← only]
        exact List.filter_congr fun row _ => call.isApproved_after row
      rw [candidates]
      rfl
    · rw [lastApproval_ne answered own, ← registered.approved, filter_approved call]
      · refine (List.map_congr_left fun row hRow => ?_).trans (List.map_id _)
        have mine : row.organizationId = organizationId :=
          of_decide_eq_true (Bool.and_eq_true_iff.mp (List.mem_filter.mp hRow).2).1
        exact ApproveCall.after_of_other (mine.trans_ne own)
      · intro row
        by_cases mine : row.organizationId = call.organizationId
        · simp [isApproved, keeps, mine, Ne.symm own]
        · rw [ApproveCall.after_of_other mine]
  · by_cases own : organizationId = call.organizationId
    · subst own
      rw [lastApproval_self answered]
      rintro approval ⟨⟩
      simp
    · rw [lastApproval_ne answered own]
      exact registered.answered organizationId
  · rw [List.filterMap_append, List.filterMap_cons_none unproposed, List.filterMap_nil,
      List.append_nil]
    exact registered.rules
  · intro rule hRule
    obtain ⟨row, hRow, same⟩ := registered.referenced rule hRule
    refine ⟨call.after row, ?_, (keeps row).1.trans same⟩
    rw [approved_eq_map]
    exact List.mem_map_of_mem hRow

/-! ### One call -/

/-- The approval can go ahead on this row. -/
def ApproveCall.Approvable (call : ApproveCall) (tables : ConstitutionTables)
    (candidate : ConstitutionRow) : Prop :=
  candidate ∈ tables.constitutions ∧ ConstitutionWorld.isCandidate call candidate = true ∧
    candidate.status = .proposed

/-- What a call can come to. -/
inductive Served (uuid : UuidType) (tables : ConstitutionTables) :
    ConstitutionRequest → CallOutcome → ConstitutionTables → Prop
  | failed {request : ConstitutionRequest}
      (serious : ∀ call, request.call = .approve call → call.actorKind = .human ∧
        ∀ ids, call.read uuid = .ok ids → ∃ candidate, ids.Approvable tables candidate) :
      Served uuid tables request .failed tables
  | null {call : ApproveCall} {refused : Bool} :
      Served uuid tables ⟨.approve call, refused⟩ (.returned none) tables
  | proposed {call ids : ProposeCall} {rules : List ConstitutionRuleRow} {refused : Bool}
      (read : call.read uuid = .ok ids) (stored : ids.rules.mapM ids.ruleRow = .ok rules)
      (free : tables.constitutions.any
        (clashes (ids.row (nextVersion tables.constitutions ids.organizationId))) = false) :
      Served uuid tables ⟨.propose call, refused⟩
        (.returned (some ⟨some (ids.row (nextVersion tables.constitutions ids.organizationId)),
          rules⟩))
        { constitutions := tables.constitutions ++
            [ids.row (nextVersion tables.constitutions ids.organizationId)]
          rules := tables.rules ++ rules }
  | approved {call ids approval : ApproveCall} {refused : Bool} {candidate : ConstitutionRow}
      (human : call.actorKind = .human) (read : call.read uuid = .ok ids)
      (by_ : ∃ approvedByUserId, approval = { ids with approvedByUserId := approvedByUserId })
      (approvable : approval.Approvable tables candidate) :
      Served uuid tables ⟨.approve call, refused⟩
        (.returned (some ⟨(tables.approved approval).find?
            (ConstitutionWorld.isCandidate approval),
          tables.rules.filter (isRuleOf approval.organizationId approval.constitutionId)⟩))
        { tables with constitutions := tables.approved approval }

theorem propose_served (uuid : UuidType) (tables : ConstitutionTables) {call ids : ProposeCall}
    (read : call.read uuid = .ok ids) (refused : Bool) :
    Served uuid tables ⟨.propose call, refused⟩ (tables.propose ids refused).1
      (tables.propose ids refused).2 := by
  simp only [ConstitutionTables.propose]
  split
  · exact .failed (by simp)
  · next free =>
    cases stored : ids.rules.mapM ids.ruleRow with
    | error error => exact .failed (by simp)
    | ok rules => exact .proposed read stored (by simp_all)

theorem approve_served (uuid : UuidType) (tables : ConstitutionTables) {call ids : ApproveCall}
    (human : call.actorKind = .human) (read : call.read uuid = .ok ids) (refused : Bool) :
    Served uuid tables ⟨.approve call, refused⟩ (tables.approve uuid ids refused).1
      (tables.approve uuid ids refused).2 := by
  simp only [ConstitutionTables.approve]
  split
  · exact .null
  · next candidate found =>
    have holds : ConstitutionWorld.isCandidate ids candidate = true ∧
        candidate.status = .proposed := by simpa using List.find?_some found
    have approvable : ids.Approvable tables candidate :=
      ⟨List.mem_of_find?_eq_some found, holds⟩
    have serious : ∀ other, ConstitutionCall.approve call = .approve other →
        other.actorKind = .human ∧
          ∀ ids', other.read uuid = .ok ids' → ∃ candidate, ids'.Approvable tables candidate := by
      rintro _ ⟨⟩
      refine ⟨human, fun ids' read' => ?_⟩
      obtain rfl := Except.ok.inj (read.symm.trans read')
      exact ⟨candidate, approvable⟩
    split
    · exact .failed serious
    · split
      · exact .failed serious
      · exact .approved human read ⟨_, rfl⟩ approvable

theorem step_served (uuid : UuidType) (tables : ConstitutionTables)
    (request : ConstitutionRequest) :
    Served uuid tables request (ConstitutionTables.step uuid tables request).1
      (ConstitutionTables.step uuid tables request).2 := by
  rcases request with ⟨call | call, refused⟩
  · simp only [ConstitutionTables.step]
    cases read : call.read uuid with
    | error error => exact .failed (by simp)
    | ok ids => exact propose_served uuid tables read refused
  · simp only [ConstitutionTables.step]
    split
    · exact .null
    · next human =>
      cases read : call.read uuid with
      | error error =>
        refine .failed ?_
        rintro _ ⟨⟩
        exact ⟨not_not.mp human, by simp [read]⟩
      | ok ids => exact approve_served uuid tables (not_not.mp human) read refused

section Served

variable {request : ConstitutionRequest} {outcome : CallOutcome} {after : ConstitutionTables}

theorem Registered.served (registered : Registered uuid visits tables)
    (served : Served uuid tables request outcome after) :
    Registered uuid (visits ++ [⟨tables, request, outcome, after⟩]) after := by
  cases served with
  | failed serious =>
    rcases request with ⟨call | call, refused⟩ <;> exact registered.idle rfl rfl
  | null => exact registered.idle rfl rfl
  | proposed read stored free =>
    exact registered.propose stored (by simp [proposalOf, read, Except.toOption]) rfl free
  | @approved call ids _ refused candidate human read by_ approvable =>
    obtain ⟨approvedByUserId, rfl⟩ := by_
    have answered : ∀ proposal after, approvalOf uuid ⟨tables, ⟨.approve call, refused⟩,
        .returned (some proposal), after⟩ = some (ids.organizationId, proposal) := by
      intro proposal after
      simp only [approvalOf, read, Except.toOption, Option.map_some]
    exact registered.approve rfl (answered _ _) approvable.1 approvable.2.1

/-- The status after an approval, of the row that is approved and of any other. -/
theorem ApproveCall.after_status (call : ApproveCall) (row : ConstitutionRow) :
    (call.after row).status =
      if ConstitutionWorld.isCandidate call row then .approved
      else if isApproved call.organizationId row then .superseded else row.status := by
  unfold ApproveCall.after
  split
  · rfl
  · split <;> rfl

theorem Served.statuses (served : Served uuid tables request outcome after)
    (primaryKey : Tables.Unique (some ·.id) tables.constitutions) :
    ∀ row ∈ after.constitutions,
      (∃ before ∈ tables.constitutions, before.id = row.id ∧
        StatusMoves before.status row.status) ∨
      (∀ before ∈ tables.constitutions, before.id ≠ row.id) ∧ row.status = .proposed := by
  intro row listed
  cases served with
  | failed | null => exact .inl ⟨row, listed, rfl, .inl rfl⟩
  | proposed read stored free =>
    rcases List.mem_append.mp listed with earlier | now
    · exact .inl ⟨row, earlier, rfl, .inl rfl⟩
    · rw [List.mem_singleton.mp now]
      refine .inr ⟨fun before hBefore same => ?_, rfl⟩
      have apart := List.any_eq_false.mp free before hBefore
      simp [clashes, same] at apart
  | @approved _ _ call _ candidate _ _ _ approvable =>
    obtain ⟨present, isCandidate, proposed⟩ := approvable
    rw [approved_eq_map] at listed
    obtain ⟨before, hBefore, rfl⟩ := List.mem_map.mp listed
    refine .inl ⟨before, hBefore, (call.after_keeps before).1.symm, ?_⟩
    rw [call.after_status]
    split
    · next approves =>
      -- The id is the primary key, so this row is the candidate.
      have same : before = candidate := by
        refine primaryKey.eq (k := call.constitutionId) hBefore present ?_ ?_
        · exact congrArg some (of_decide_eq_true (Bool.and_eq_true_iff.mp approves).2)
        · exact congrArg some (of_decide_eq_true (Bool.and_eq_true_iff.mp isCandidate).2)
      exact .inr (.inl ⟨same ▸ proposed, rfl⟩)
    · split
      · next active =>
        exact .inr (.inr ⟨of_decide_eq_true (Bool.and_eq_true_iff.mp active).2, rfl⟩)
      · exact .inl rfl

theorem Served.kept (served : Served uuid tables request outcome after) :
    ∀ before ∈ tables.constitutions, ∃ row ∈ after.constitutions, row.id = before.id := by
  intro before listed
  cases served with
  | failed | null => exact ⟨before, listed, rfl⟩
  | proposed read stored free => exact ⟨before, List.mem_append_left _ listed, rfl⟩
  | @approved _ _ call _ candidate _ _ _ approvable =>
    refine ⟨call.after before, ?_, (call.after_keeps before).1⟩
    rw [approved_eq_map]
    exact List.mem_map_of_mem listed

theorem ApproveCall.Futile.not_approvable {call ids : ApproveCall}
    (futile : call.Futile uuid tables) (human : call.actorKind = .human)
    (read : call.read uuid = .ok ids)
    (primaryKey : Tables.Unique (some ·.id) tables.constitutions) (candidate : ConstitutionRow) :
    ¬ ids.Approvable tables candidate := by
  rintro ⟨present, isCandidate, proposed⟩
  obtain ⟨hOrganization, hId⟩ : candidate.organizationId = ids.organizationId ∧
      candidate.id = ids.constitutionId := by
    simpa [ConstitutionWorld.isCandidate] using isCandidate
  rcases futile with agent | ⟨ids', read', futile⟩
  · exact agent human
  · obtain rfl := Except.ok.inj (read.symm.trans read')
    rcases futile with foreign | ⟨row, listed, same, status⟩
    · exact foreign candidate present hId hOrganization
    · have equal := primaryKey.eq listed present (congrArg some same) (congrArg some hId)
      exact status (equal ▸ proposed)

theorem Served.futile (served : Served uuid tables request outcome after)
    (primaryKey : Tables.Unique (some ·.id) tables.constitutions) {call : ApproveCall}
    (approval : request.call = .approve call) (futile : call.Futile uuid tables) :
    outcome = .returned none ∧ after = tables := by
  cases served with
  | failed serious =>
    obtain ⟨human, approvable⟩ := serious call approval
    rcases futile with agent | ⟨ids, read, futile⟩
    · exact absurd human agent
    · obtain ⟨candidate, approvable⟩ := approvable ids read
      exact absurd approvable (ApproveCall.Futile.not_approvable (.inr ⟨ids, read, futile⟩) human
        read primaryKey candidate)
  | null => exact ⟨rfl, rfl⟩
  | proposed => cases approval
  | approved human read by_ approvable =>
    cases approval
    obtain ⟨approvedByUserId, rfl⟩ := by_
    exact absurd approvable (futile.not_approvable human read primaryKey _)

theorem Served.of_failed (served : Served uuid tables request outcome after)
    (failed : outcome = .failed) : after = tables := by
  cases served with
  | failed => rfl
  | null | proposed | approved => cases failed

theorem step_unreadable (tables : ConstitutionTables) {request : ConstitutionRequest}
    (unreadable : request.call.Unreadable uuid) :
    (ConstitutionTables.step uuid tables request).1 = .failed := by
  obtain ⟨call, refused⟩ := request
  cases call with
  | propose call =>
    obtain ⟨error, unread⟩ := unreadable
    simp only [ConstitutionTables.step, unread]
  | approve call =>
    obtain ⟨human, error, unread⟩ := unreadable
    simp only [ConstitutionTables.step, unread, if_neg (not_not_intro human)]

/-- The organization of a call, as its column reads it. -/
theorem ProposeCall.read_organization {call ids : ProposeCall} (read : call.read uuid = .ok ids) :
    uuid.read call.organizationId = some ids.organizationId := by
  simp only [ProposeCall.read, bind_eq_ok] at read
  obtain ⟨organizationId, hOrganization, proposedByUserId, -, result⟩ := read
  cases result
  exact uuidColumn_eq_ok.mp hOrganization

theorem ApproveCall.read_organization {call ids : ApproveCall} (read : call.read uuid = .ok ids) :
    uuid.read call.organizationId = some ids.organizationId := by
  simp only [ApproveCall.read, bind_eq_ok] at read
  obtain ⟨organizationId, hOrganization, constitutionId, -, result⟩ := read
  cases result
  exact uuidColumn_eq_ok.mp hOrganization

theorem Served.tenancy (served : Served uuid tables request outcome after) {other : String}
    (differ : uuid.read request.call.organizationId ≠ some other) :
    rowsOf other after = rowsOf other tables ∧
      after.rules.filter (·.organizationId = other) =
        tables.rules.filter (·.organizationId = other) := by
  cases served with
  | failed | null => exact ⟨rfl, rfl⟩
  | @proposed call ids rules refused read stored free =>
    have foreign : ids.organizationId ≠ other := by
      rintro rfl
      exact differ (ProposeCall.read_organization read)
    constructor
    · simp [rowsOf, ProposeCall.row, foreign]
    · have none : rules.filter (·.organizationId = other) = [] :=
        List.filter_eq_nil_iff.mpr fun rule listed => by
          simp [(ProposeCall.rules_own stored rule listed).1, foreign]
      rw [List.filter_append, none, List.append_nil]
  | @approved call ids approval refused candidate human read by_ approvable =>
    obtain ⟨approvedByUserId, rfl⟩ := by_
    have foreign : other ≠ ids.organizationId := by
      rintro rfl
      exact differ (ApproveCall.read_organization read)
    refine ⟨?_, rfl⟩
    rw [rowsOf, filter_approved _ (by simp [ApproveCall.after_keeps])]
    refine (List.map_congr_left fun row hRow => ?_).trans (List.map_id _)
    have mine : row.organizationId = other := of_decide_eq_true (List.mem_filter.mp hRow).2
    exact ApproveCall.after_of_other (mine.trans_ne foreign)

end Served

/-! ### The query -/

theorem exists_findsActive (tables : ConstitutionTables) (organizationId : String) :
    ∃ result, tables.FindsActive organizationId result := by
  obtain ⟨ordered, ordering⟩ := exists_orderedBy (fun row : ConstitutionRow => -row.version)
    (tables.constitutions.filter (isApproved organizationId))
  cases ordered with
  | nil => exact ⟨none, [], ordering, rfl⟩
  | cons constitution rest => exact ⟨_, _, ordering, _, .refl _, rfl⟩

theorem getActive_of_read {organizationId id : String}
    (read : uuid.read organizationId = some id)
    {answer : Except Thrown (Option ConstitutionProposal)} :
    tables.GetActive uuid organizationId answer ↔
      ∃ result, tables.FindsActive id result ∧ answer = .ok result := by
  rw [GetActive, uuidColumn_eq_ok.mpr read]

theorem getActive_of_unread {organizationId : String} (unread : uuid.read organizationId = none)
    {answer : Except Thrown (Option ConstitutionProposal)} :
    tables.GetActive uuid organizationId answer ↔ answer = .error invalidTextRepresentation := by
  have refused : uuidColumn uuid organizationId = .error invalidTextRepresentation := by
    rw [uuidColumn, unread]
    rfl
  rw [GetActive, refused]

theorem exists_getActive (uuid : UuidType) (tables : ConstitutionTables)
    (organizationId : String) : ∃ answer, tables.GetActive uuid organizationId answer := by
  cases read : uuid.read organizationId with
  | none => exact ⟨_, (getActive_of_unread read).mpr rfl⟩
  | some id =>
    obtain ⟨result, found⟩ := exists_findsActive tables id
    exact ⟨.ok result, (getActive_of_read read).mpr ⟨result, found, rfl⟩⟩

theorem Registered.found (registered : Registered uuid visits tables) {organizationId : String}
    {result : Option ConstitutionProposal} (active : tables.FindsActive organizationId result) :
    match lastApproval uuid organizationId visits with
    | none => result = none
    | some approval => ∃ proposal ∈ proposals uuid organizationId visits,
        ∃ constitution activeRules rules,
          approval.constitution = some constitution ∧ constitution.id = proposal.id ∧
            proposal.rules.mapM proposal.ruleRow = .ok rules ∧ activeRules.Perm rules ∧
              result = some ⟨some constitution, activeRules⟩ := by
  obtain ⟨ordered, ordering, hResult⟩ := active
  have rows := registered.approved organizationId
  have perm := ordering.perm
  rw [rows] at perm
  cases last : lastApproval uuid organizationId visits with
  | none =>
    rw [last] at perm
    obtain rfl := List.perm_nil.mp perm
    exact hResult
  | some approval =>
    obtain ⟨constitution, hConstitution⟩ :=
      Option.ne_none_iff_exists'.mp (registered.answered organizationId approval last)
    rw [last, Option.bind_some, hConstitution] at perm rows
    obtain rfl := List.perm_singleton.mp perm
    obtain ⟨activeRules, rulesPerm, rfl⟩ := hResult
    have listed : constitution ∈ rowsOf organizationId tables := by
      have approved : constitution ∈ tables.constitutions.filter (isApproved organizationId) := by
        rw [rows]
        exact List.mem_singleton_self constitution
      obtain ⟨present, mine⟩ := List.mem_filter.mp approved
      exact List.mem_filter.mpr ⟨present, (Bool.and_eq_true_iff.mp mine).1⟩
    have listedId := List.mem_map_of_mem (f := (·.id)) listed
    rw [registered.ids] at listedId
    obtain ⟨proposal, hProposal, same⟩ := List.mem_map.mp listedId
    obtain ⟨made, mine⟩ := List.mem_filter.mp hProposal
    refine ⟨proposal, hProposal, constitution, activeRules, _, hConstitution, same.symm,
      registered.rules proposal made, ?_, rfl⟩
    rw [of_decide_eq_true mine, same]
    exact rulesPerm

theorem Registered.active (registered : Registered uuid visits tables)
    {organizationId id : String} {answer : Except Thrown (Option ConstitutionProposal)}
    (read : uuid.read organizationId = some id)
    (active : tables.GetActive uuid organizationId answer) :
    match lastApproval uuid id visits with
    | none => answer = .ok none
    | some approval => ∃ proposal ∈ proposals uuid id visits,
        ∃ constitution activeRules rules,
          approval.constitution = some constitution ∧ constitution.id = proposal.id ∧
            proposal.rules.mapM proposal.ruleRow = .ok rules ∧ activeRules.Perm rules ∧
              answer = .ok (some ⟨some constitution, activeRules⟩) := by
  obtain ⟨result, finds, rfl⟩ := (getActive_of_read read).mp active
  have found := registered.found finds
  cases last : lastApproval uuid id visits with
  | none =>
    rw [last] at found
    rw [found]
  | some approval =>
    rw [last] at found
    obtain ⟨proposal, listed, constitution, activeRules, rules, approved, same, kept, perm, rfl⟩ :=
      found
    exact ⟨proposal, listed, constitution, activeRules, rules, approved, same, kept, perm, rfl⟩

end Calls

/-! ### Every run -/

theorem registered_visits (uuid : UuidType) (requests : List ConstitutionRequest) :
    Registered uuid (Machine.visits (ConstitutionTables.step uuid) {} requests)
      (Machine.final (ConstitutionTables.step uuid) {} requests) := by
  induction requests using List.reverseRecOn with
  | nil => exact .start
  | append_singleton earlier request ih =>
    rw [Machine.visits_snoc, Machine.final_snoc]
    exact ih.served (step_served uuid _ request)

/-- Every run of proposals and approvals by any actors for any organizations implements the
register of active constitutions, in which rules come back as their table stores them. -/
theorem constitutions_activeRegister (uuid : UuidType) (requests : List ConstitutionRequest) :
    ActiveRegister uuid ProposeCall.ruleRow
      (Machine.visits (ConstitutionTables.step uuid) {} requests)
      (Machine.final (ConstitutionTables.step uuid) {} requests) := by
  have registered := registered_visits uuid requests
  -- Each visit was served, on tables with a primary key.
  have visited : ∀ visit ∈ Machine.visits (ConstitutionTables.step uuid) {} requests,
      Served uuid visit.before visit.input visit.output visit.after ∧
        visit.output = (ConstitutionTables.step uuid visit.before visit.input).1 ∧
        Tables.Unique (some ·.id) visit.before.constitutions := by
    intro visit listed
    obtain ⟨earlier, same⟩ := Machine.exists_of_mem_visits listed
    rw [same]
    exact ⟨step_served uuid _ _, rfl, (registered_visits uuid earlier).primaryKey⟩
  constructor
  · exact registered.versions
  · intro visit listed
    obtain ⟨served, -, primaryKey⟩ := visited visit listed
    exact served.statuses primaryKey
  · exact fun visit listed => (visited visit listed).1.kept
  · exact exists_getActive uuid _
  · exact fun _ _ _ => registered.active
  · exact fun _ _ unread => (getActive_of_unread unread).mp
  · intro visit listed call approval futile
    obtain ⟨served, -, primaryKey⟩ := visited visit listed
    exact served.futile primaryKey approval futile
  · intro visit listed unreadable
    obtain ⟨-, stepped, -⟩ := visited visit listed
    rw [stepped]
    exact step_unreadable visit.before unreadable
  · exact fun visit listed => (visited visit listed).1.of_failed
  · exact fun visit listed _ => (visited visit listed).1.tenancy

/-! ### A value that JSON does not have -/

/-- The row of a rule that is kept just as it was proposed. -/
def ProposeCall.ruleAsProposed (call : ProposeCall) (rule : ConstitutionRuleInput) :
    Except Thrown ConstitutionRuleRow := do
  let row ← call.ruleRow rule
  pure { row with structuredValue := rule.structuredValue }

/-- Any discount is allowed. -/
def discountRule : ConstitutionRuleInput where
  kind := .financialThreshold
  key := "discount"
  statement := "Any discount is fine."
  structuredValue := some (.object [("limit", .number (.infinity false))])

def discountCalls : List ConstitutionRequest := [
  ⟨.propose {
    organizationId := "acme"
    proposedByUserId := "jo"
    rules := [discountRule]
    id := "1"
    now := 0 }, false⟩,
  ⟨.approve {
    organizationId := "acme"
    constitutionId := "1"
    approvedByUserId := "jo"
    actorKind := .human
    supersededAt := 1
    approvedAt := 1
    updatedAt := 1 }, false⟩]

/-- An unlimited discount comes back with the limit `null`. -/
theorem constitutions_alter_values : ¬ ∀ (uuid : UuidType) (requests : List ConstitutionRequest),
    ActiveRegister uuid ProposeCall.ruleAsProposed
      (Machine.visits (ConstitutionTables.step uuid) {} requests)
      (Machine.final (ConstitutionTables.step uuid) {} requests) := by
  intro register
  have held := register plainIds discountCalls
  obtain ⟨answer, active⟩ := held.answers "acme"
  obtain ⟨proposal, listed, constitution, activeRules, rules, -, -, kept, same, hResult⟩ :=
    held.active "acme" "acme" answer rfl active
  obtain ⟨result, ⟨ordered, ordering, hActive⟩, rfl⟩ := active
  obtain rfl : ordered = [_] := List.perm_singleton.mp ordering.perm
  obtain ⟨storedRules, stored, rfl⟩ := hActive
  obtain rfl := List.mem_singleton.mp listed
  obtain rfl := Except.ok.inj kept
  cases hResult
  have values := (stored.symm.trans same).map (·.structuredValue)
  have impossible := List.perm_singleton.mp values
  cases impossible

end Donna
