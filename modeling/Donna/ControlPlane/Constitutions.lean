import Donna.Base.ReadCommitted
import Donna.Db.Columns

/-! The service of business constitutions over a database: proposals and approvals as transactions
whose statements interleave under READ COMMITTED. -/

namespace Donna

open Js ReadCommitted

inductive ConstitutionStatus
  | proposed
  | approved
  | superseded
  | rejected
  deriving DecidableEq

inductive ConstitutionRuleKind
  | goalPriority
  | definitionOfDone
  | roleAuthority
  | customerPromise
  | communicationBrand
  | financialThreshold
  | operationalThreshold
  | escalation
  | aiBoundary
  | riskTolerance
  | neverAutonomous
  deriving DecidableEq

structure ConstitutionRow where
  id : String
  organizationId : String
  version : ℤ
  status : ConstitutionStatus
  title : String
  proposedByUserId : Option String
  approvedByUserId : Option String
  approvedAt : Option ℤ
  createdAt : ℤ
  updatedAt : ℤ
  deriving DecidableEq

structure ConstitutionRuleRow where
  organizationId : String
  constitutionId : String
  kind : ConstitutionRuleKind
  key : String
  statement : String
  action : Option String
  thresholdMinor : Option ℤ
  currency : Option String
  requiresApproval : Bool
  neverAutonomous : Bool
  structuredValue : Option JsValue

structure ConstitutionRuleInput where
  kind : ConstitutionRuleKind
  key : String
  statement : String
  action : Option String := none
  thresholdMinor : Option ℤ := none
  currency : Option String := none
  requiresApproval : Option Bool := none
  neverAutonomous : Option Bool := none
  structuredValue : Option JsValue := none

/-- A constitution with its rules; `none` is what an update that met no row returns. -/
structure ConstitutionProposal where
  constitution : Option ConstitutionRow
  rules : List ConstitutionRuleRow

/-! ### Calls -/

/-- A call of `propose`, with the id and the clock that the insert draws. -/
structure ProposeCall where
  organizationId : String
  proposedByUserId : String
  rules : List ConstitutionRuleInput
  title : String := "Business Constitution"
  id : String
  now : ℤ

inductive ApproverKind
  | human
  | agent
  | system
  deriving DecidableEq

/-- A call of `approve`, with the clock at each of its updates. -/
structure ApproveCall where
  organizationId : String
  constitutionId : String
  approvedByUserId : String
  actorKind : ApproverKind
  supersededAt : ℤ
  approvedAt : ℤ
  updatedAt : ℤ

def ProposeCall.row (call : ProposeCall) (version : ℤ) : ConstitutionRow where
  id := call.id
  organizationId := call.organizationId
  version := version
  status := .proposed
  title := call.title
  proposedByUserId := some call.proposedByUserId
  approvedByUserId := none
  approvedAt := none
  createdAt := call.now
  updatedAt := call.now

/-- The row that a rule is inserted as. -/
def ProposeCall.ruleRow (call : ProposeCall) (rule : ConstitutionRuleInput) :
    Except Thrown ConstitutionRuleRow := do
  let structuredValue ← jsonbColumn rule.structuredValue
  pure {
    organizationId := call.organizationId
    constitutionId := call.id
    kind := rule.kind
    key := rule.key
    statement := rule.statement
    action := rule.action
    thresholdMinor := rule.thresholdMinor
    currency := rule.currency
    requiresApproval := rule.requiresApproval.getD false
    neverAutonomous := rule.neverAutonomous.getD false
    structuredValue := structuredValue }

/-- `coalesce(max(version), 0)::int + 1` over the rows of an organization. -/
def nextVersion (rows : List ConstitutionRow) (organizationId : String) : ℤ :=
  match ((rows.filter (·.organizationId = organizationId)).map (·.version)).max? with
  | some version => version + 1
  | none => 1

/-- What one of the unique keys of the table forbids beside a row. -/
def clashes (row other : ConstitutionRow) : Bool :=
  row.id = other.id || (row.organizationId = other.organizationId && row.version = other.version)

/-! ### Transactions -/

/-- Where a transaction stands between two statements.  The tuples that the supersede statement
found stay on record until the end. -/
inductive Phase
  | idle
  | proposing (call : ProposeCall)
  | versioned (call : ProposeCall) (version : ℤ)
  | inserted (call : ProposeCall) (constitution : ConstitutionRow)
  | proposed (proposal : ConstitutionProposal)
  | approving (call : ApproveCall)
  | candidate (call : ApproveCall)
  | superseding (call : ApproveCall) (found targets : List ℕ)
  | approved (call : ApproveCall) (found : List ℕ) (constitution : Option ConstitutionRow)
  | read (call : ApproveCall) (found : List ℕ) (proposal : ConstitutionProposal)

/-- The two tables, and the transaction of each session, whose call has its ids in the texts that
the `uuid` type gives them. -/
structure ConstitutionWorld where
  constitutions : Table ConstitutionRow
  rules : Table ConstitutionRuleRow
  phases : ℕ → Phase

/-- What a session does next: open a transaction, run its next statement, or lose it. -/
inductive Move
  | propose (call : ProposeCall)
  | approve (call : ApproveCall)
  | advance
  | abort

/-- The end of a call: what it returns, or that it threw. -/
inductive CallOutcome
  | returned (proposal : Option ConstitutionProposal)
  | failed

namespace ConstitutionWorld

variable (world : ConstitutionWorld) (session : ℕ)

def enter (phase : Phase) : ConstitutionWorld :=
  { world with phases := Function.update world.phases session phase }

def commit : ConstitutionWorld where
  constitutions := world.constitutions.commit session
  rules := world.rules.commit session
  phases := Function.update world.phases session .idle

def rollback : ConstitutionWorld where
  constitutions := world.constitutions.rollback session
  rules := world.rules.rollback session
  phases := Function.update world.phases session .idle

/-- The insert of a proposal: refused by a row that is there, and held up by one that another
transaction may still commit. -/
def insertProposal (call : ProposeCall) (version : ℤ) : Option CallOutcome × ConstitutionWorld :=
  let row := call.row version
  if (world.constitutions.visibleRows session).any (clashes row) then
    (some .failed, world.rollback session)
  else if world.constitutions.any fun tuple => tuple.pending.any fun version =>
      version.1 ≠ session && clashes row version.2 then (none, world)
  else
    (none, { world with constitutions := world.constitutions.insert session row }.enter session
      (.inserted call row))

/-- The supersede statement at the next tuple that it found. -/
def supersedeAt (call : ApproveCall) (found : List ℕ) (position : ℕ) (rest : List ℕ) :
    ConstitutionWorld :=
  match world.constitutions.updateAt session
      (fun row => row.organizationId = call.organizationId && row.status = .approved)
      (fun row => { row with status := .superseded, updatedAt := call.supersededAt }) position with
  | none => world
  | some constitutions =>
    { world with constitutions := constitutions }.enter session (.superseding call found rest)

def isCandidate (call : ApproveCall) (row : ConstitutionRow) : Bool :=
  row.organizationId = call.organizationId && row.id = call.constitutionId

def markApproved (call : ApproveCall) (row : ConstitutionRow) : ConstitutionRow :=
  { row with
    status := .approved
    approvedByUserId := some call.approvedByUserId
    approvedAt := some call.approvedAt
    updatedAt := call.updatedAt }

/-- The update of the candidate, by its id alone. -/
def approveCandidate (call : ApproveCall) (found : List ℕ) : ConstitutionWorld :=
  match world.constitutions.snapshot session (isCandidate call) with
  | [] => world.enter session (.approved call found none)
  | position :: _ =>
    match world.constitutions.updateAt session (isCandidate call) (markApproved call) position with
    | none => world
    | some constitutions =>
      { world with constitutions := constitutions }.enter session
        (.approved call found (constitutions.visibleAt session position))

/-- The next statement of a session. -/
def advance : Option CallOutcome × ConstitutionWorld :=
  match world.phases session with
  | .idle => (none, world)
  | .proposing call =>
    let version := nextVersion (world.constitutions.visibleRows session) call.organizationId
    (none, world.enter session (.versioned call version))
  | .versioned call version => world.insertProposal session call version
  | .inserted call constitution =>
    match call.rules.mapM call.ruleRow with
    | .error _ => (some .failed, world.rollback session)
    | .ok rules =>
      (none, { world with rules := rules.foldl (·.insert session) world.rules }.enter session
        (.proposed ⟨some constitution, rules⟩))
  | .proposed proposal => (some (.returned (some proposal)), world.commit session)
  | .approving call =>
    match (world.constitutions.visibleRows session).find? fun row =>
        isCandidate call row && row.status = .proposed with
    | none => (some (.returned none), world.commit session)
    | some _ => (none, world.enter session (.candidate call))
  | .candidate call =>
    let found := world.constitutions.snapshot session fun row =>
      row.organizationId = call.organizationId && row.status = .approved
    (none, world.enter session (.superseding call found found))
  | .superseding call found (position :: rest) =>
    (none, world.supersedeAt session call found position rest)
  | .superseding call found [] => (none, world.approveCandidate session call found)
  | .approved call found constitution =>
    let activeRules := (world.rules.visibleRows session).filter fun rule =>
      rule.organizationId = call.organizationId && rule.constitutionId = call.constitutionId
    (none, world.enter session (.read call found ⟨constitution, activeRules⟩))
  | .read _ _ proposal => (some (.returned (some proposal)), world.commit session)

/-- One step of an interleaving.  A session that waits stays where it is. -/
def step (action : ℕ × Move) : Option CallOutcome × ConstitutionWorld :=
  match action.2, world.phases action.1 with
  | .propose call, .idle => (none, world.enter action.1 (.proposing call))
  | .approve call, .idle =>
    if call.actorKind ≠ .human then (some (.returned none), world)
    else (none, world.enter action.1 (.approving call))
  | .propose _, _ | .approve _, _ => (none, world)
  | .advance, _ => world.advance action.1
  | .abort, .idle => (none, world)
  | .abort, _ => (some .failed, world.rollback action.1)

end ConstitutionWorld

end Donna
