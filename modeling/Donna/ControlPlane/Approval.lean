import Donna.Base.Machine
import Donna.Base.RowLocks
import Donna.ControlPlane.Constitutions

/-! Approved constitutions under concurrency: which interleavings keep at most one of them for an
organization, and never bring a superseded one back.  The supersede statement holds what it found
until the commit, so what can go wrong is an approval that it did not find, and a candidate that was
superseded after it was read. -/

namespace Donna

open ReadCommitted

/-- The organization for which a row is the approved constitution. -/
def approvedOrg (row : ConstitutionRow) : Option String :=
  if row.status = .approved then some row.organizationId else none

namespace ConstitutionWorld

/-- At most one approved constitution for each organization. -/
def OneApproved (world : ConstitutionWorld) : Prop :=
  Tables.Unique approvedOrg world.constitutions.committedRows

/-- What every state of a run promises, and what a superseded constitution is promised in all later
ones. -/
structure Sound (world : ConstitutionWorld) (actions : List (ℕ × Move)) : Prop where
  oneApproved : ∀ taken, taken <+: actions → (Machine.final step world taken).OneApproved
  supersededForGood : ∀ taken further, taken ++ further <+: actions →
    ∀ row ∈ (Machine.final step world taken).constitutions.committedRows,
      row.status = .superseded →
    ∀ later ∈ (Machine.final step world (taken ++ further)).constitutions.committedRows,
      later.id = row.id → later.status ≠ .approved

/-- The commit of an approval finds no other constitution of the organization approved that its
supersede statement did not find, and its candidate not superseded. -/
def Uncontested (world : ConstitutionWorld) (action : ℕ × Move) : Prop :=
  match action.2, world.phases action.1 with
  | .advance, .read call found _ =>
    ∀ position row, world.constitutions.committedAt position = some row →
      row.organizationId = call.organizationId →
      (row.status = .approved → row.id = call.constitutionId ∨ position ∈ found) ∧
      (row.id = call.constitutionId → row.status ≠ .superseded)
  | _, _ => True

/-- No transaction is open, and the primary key holds. -/
structure Quiescent (world : ConstitutionWorld) : Prop where
  idle : ∀ session, world.phases session = .idle
  settled : ∀ position, world.constitutions.pendingAt position = none
  primaryKey : Tables.Unique (some ·.id) world.constitutions.committedRows

end ConstitutionWorld

/-! ### What a table says about one transaction -/

section Predicates

variable (table : Table ConstitutionRow)

/-- A version of the row, committed or not. -/
def Live (position : ℕ) (row : ConstitutionRow) : Prop :=
  table.committedAt position = some row ∨ ∃ owner, table.pendingAt position = some (owner, row)

def DistinctIds : Prop :=
  ∀ i j a b, Live table i a → Live table j b → a.id = b.id → i = j

/-- A row of the call's organization stands under the version that is written over it. -/
def Supersedes (call : ApproveCall) (position : ℕ) (row : ConstitutionRow) : Prop :=
  row.organizationId = call.organizationId ∧ ∃ before, table.committedAt position = some before ∧
    before.id = row.id ∧ before.organizationId = row.organizationId

/-- What a transaction has written by the time that it stands at a statement. -/
def OwnWrite (phase : Phase) (position : ℕ) (row : ConstitutionRow) : Prop :=
  match phase with
  | .inserted _ _ | .proposed _ => table.committedAt position = none ∧ row.status = .proposed
  | .superseding call found _ =>
    Supersedes table call position row ∧ position ∈ found ∧ row.status = .superseded
  | .approved call found _ | .read call found _ =>
    Supersedes table call position row ∧ (position ∈ found ∧ row.status = .superseded ∨
      row.id = call.constitutionId ∧ row.status = .approved)
  | _ => False

def HasCandidate (call : ApproveCall) : Prop :=
  ∃ position row, table.committedAt position = some row ∧
    ConstitutionWorld.isCandidate call row = true

/-- A tuple that the supersede statement found and has still to reach. -/
def Ahead (call : ApproveCall) (position : ℕ) : Prop :=
  ∃ row, table.committedAt position = some row ∧ row.organizationId = call.organizationId ∧
    (row.status = .approved ∨ row.status = .superseded)

/-- A tuple that the supersede statement has passed. -/
def Covered (session : ℕ) (call : ApproveCall) (position : ℕ) : Prop :=
  ∃ row, table.committedAt position = some row ∧ row.organizationId = call.organizationId ∧
    (row.id = call.constitutionId ∨ row.status = .superseded ∨
      ∃ written, table.pendingAt position = some (session, written) ∧
        written.status = .superseded)

/-- The transaction holds its candidate as approved. -/
def Approves (session : ℕ) (call : ApproveCall) : Prop :=
  ∃ position row, table.pendingAt position = some (session, row) ∧
    row.organizationId = call.organizationId ∧ row.id = call.constitutionId ∧
    row.status = .approved

/-- What holds of the tables while a transaction stands at a statement. -/
def Standing (session : ℕ) (phase : Phase) : Prop :=
  match phase with
  | .candidate call => HasCandidate table call
  | .superseding call found targets =>
    HasCandidate table call ∧ targets ⊆ found ∧ (∀ position ∈ targets, Ahead table call position) ∧
      ∀ position ∈ found, position ∉ targets → Covered table session call position
  | .approved call found _ | .read call found _ =>
    (∀ position ∈ found, Covered table session call position) ∧ Approves table session call
  | _ => True

end Predicates

/-! ### Steps of one transaction seen by another -/

/-- Committed rows keep their identity; one that was approved is so or is superseded, and one that
is superseded stays so. -/
def Evolves (before after : Table ConstitutionRow) : Prop :=
  ∀ position row, before.committedAt position = some row →
    ∃ later, after.committedAt position = some later ∧ later.id = row.id ∧
      later.organizationId = row.organizationId ∧
      (row.status = .approved → later.status = .approved ∨ later.status = .superseded) ∧
      (row.status = .superseded → later.status = .superseded)

/-- The writes of the other transactions, and what is under them, stay as they are. -/
def Frame (session : ℕ) (before after : Table ConstitutionRow) : Prop :=
  ∀ other, other ≠ session → ∀ position row,
    (after.pendingAt position = some (other, row) ↔ before.pendingAt position = some (other, row)) ∧
    (before.pendingAt position = some (other, row) →
      after.committedAt position = before.committedAt position)

section Transfer

variable {before after : Table ConstitutionRow} {session other : ℕ} {call : ApproveCall}
  {position : ℕ} {row : ConstitutionRow} {phase : Phase}

theorem Evolves.of_committed (same : after.committedAt = before.committedAt) :
    Evolves before after := by
  intro position row found
  exact ⟨row, by rw [same]; exact found, rfl, rfl, .inl, id⟩

theorem Evolves.trans {first second third : Table ConstitutionRow} (h : Evolves first second)
    (h' : Evolves second third) : Evolves first third := by
  intro position row committed
  obtain ⟨later, hLater, hId, hOrganization, approved, superseded⟩ := h position row committed
  obtain ⟨last, hLast, hId', hOrganization', approved', superseded'⟩ := h' position later hLater
  refine ⟨last, hLast, hId'.trans hId, hOrganization'.trans hOrganization, fun status => ?_,
    fun status => superseded' (superseded status)⟩
  exact (approved status).elim approved' fun status => .inr (superseded' status)

theorem HasCandidate.evolves (evolves : Evolves before after) (has : HasCandidate before call) :
    HasCandidate after call := by
  obtain ⟨position, row, found, isCandidate⟩ := has
  obtain ⟨later, hLater, hId, hOrganization, -⟩ := evolves position row found
  refine ⟨position, later, hLater, ?_⟩
  rwa [ConstitutionWorld.isCandidate, hId, hOrganization]

theorem Ahead.evolves (evolves : Evolves before after) (ahead : Ahead before call position) :
    Ahead after call position := by
  obtain ⟨row, found, hOrganization, status⟩ := ahead
  obtain ⟨later, hLater, -, hSame, approved, superseded⟩ := evolves position row found
  refine ⟨later, hLater, hSame.trans hOrganization, ?_⟩
  exact status.elim approved fun h => .inr (superseded h)

theorem Covered.evolves (evolves : Evolves before after)
    (kept : ∀ row, before.pendingAt position = some (session, row) →
      after.pendingAt position = some (session, row))
    (covered : Covered before session call position) : Covered after session call position := by
  obtain ⟨row, found, hOrganization, why⟩ := covered
  obtain ⟨later, hLater, hId, hSame, -, superseded⟩ := evolves position row found
  refine ⟨later, hLater, hSame.trans hOrganization, ?_⟩
  rcases why with candidate | status | ⟨written, pending, status⟩
  · exact .inl (hId.trans candidate)
  · exact .inr (.inl (superseded status))
  · exact .inr (.inr ⟨written, kept written pending, status⟩)

theorem Standing.transfer (evolves : Evolves before after) (frame : Frame session before after)
    (different : other ≠ session) (standing : Standing before other phase) :
    Standing after other phase := by
  have kept : ∀ position row, before.pendingAt position = some (other, row) →
      after.pendingAt position = some (other, row) := fun position row =>
    (frame other different position row).1.mpr
  cases phase with
  | candidate call => exact HasCandidate.evolves evolves standing
  | superseding call found targets =>
    obtain ⟨has, inFound, ahead, covered⟩ := standing
    exact ⟨has.evolves evolves, inFound, fun position listed =>
      (ahead position listed).evolves evolves, fun position listed passed =>
      (covered position listed passed).evolves evolves (kept position)⟩
  | approved call found _ | read call found _ =>
    obtain ⟨covered, position, row, pending, approves⟩ := standing
    exact ⟨fun position listed => (covered position listed).evolves evolves (kept position),
      position, row, kept position row pending, approves⟩
  | _ => trivial

theorem OwnWrite.transfer (same : after.committedAt position = before.committedAt position)
    (own : OwnWrite before phase position row) : OwnWrite after phase position row := by
  cases phase with
  | inserted _ _ | proposed _ | superseding _ _ _ | approved _ _ _ | read _ _ _ =>
    simpa only [OwnWrite, Supersedes, same] using own
  | _ => exact own

theorem DistinctIds.mono (distinct : DistinctIds before)
    (known : ∀ i a, Live after i a → ∃ b, Live before i b ∧ b.id = a.id) : DistinctIds after := by
  intro i j a b hA hB same
  obtain ⟨first, hFirst, hFirstId⟩ := known i a hA
  obtain ⟨second, hSecond, hSecondId⟩ := known j b hB
  exact distinct i j first second hFirst hSecond (hFirstId.trans (same.trans hSecondId.symm))

end Transfer

namespace ConstitutionWorld

/-- What every state of an uncontested run keeps. -/
structure Invariant (world : ConstitutionWorld) : Prop where
  distinctIds : DistinctIds world.constitutions
  ownWrites : ∀ position owner row, world.constitutions.pendingAt position = some (owner, row) →
    OwnWrite world.constitutions (world.phases owner) position row
  standing : ∀ session, Standing world.constitutions session (world.phases session)
  oneApproved : world.OneApproved

/-- A step of one transaction keeps the invariant when it keeps its own part and leaves the others'
alone. -/
theorem Invariant.of_step {world after : ConstitutionWorld} {session : ℕ} {phase : Phase}
    (inv : world.Invariant) (phases : after.phases = Function.update world.phases session phase)
    (frame : Frame session world.constitutions after.constitutions)
    (evolves : Evolves world.constitutions after.constitutions)
    (distinctIds : DistinctIds after.constitutions)
    (ownWrites : ∀ position row, after.constitutions.pendingAt position = some (session, row) →
      OwnWrite after.constitutions phase position row)
    (standing : Standing after.constitutions session phase) (oneApproved : after.OneApproved) :
    after.Invariant := by
  refine ⟨distinctIds, fun position owner row pending => ?_, fun other => ?_, oneApproved⟩
  · rw [phases]
    by_cases same : owner = session
    · subst same
      rw [Function.update_self]
      exact ownWrites position row pending
    · rw [Function.update_of_ne same]
      have held := (frame owner same position row).1.mp pending
      exact (inv.ownWrites position owner row held).transfer
        ((frame owner same position row).2 held)
  · rw [phases]
    by_cases same : other = session
    · subst same
      rw [Function.update_self]
      exact standing
    · rw [Function.update_of_ne same]
      exact (inv.standing other).transfer evolves frame same

section Steps

variable {world : ConstitutionWorld} {session : ℕ} {phase : Phase}

theorem oneApproved_iff : world.OneApproved ↔
    ∀ i j a b, world.constitutions.committedAt i = some a →
      world.constitutions.committedAt j = some b → a.status = .approved → b.status = .approved →
      a.organizationId = b.organizationId → i = j := by
  rw [OneApproved, Table.unique_committedRows]
  constructor
  · intro unique i j a b hA hB statusA statusB same
    exact unique i j a b a.organizationId hA hB (by simp [approvedOrg, statusA])
      (by simp [approvedOrg, statusB, same])
  · intro unique i j a b organizationId hA hB keyA keyB
    obtain ⟨statusA, orgA⟩ := Option.ite_none_right_eq_some.mp keyA
    obtain ⟨statusB, orgB⟩ := Option.ite_none_right_eq_some.mp keyB
    exact unique i j a b hA hB statusA statusB
      ((Option.some.inj orgA).trans (Option.some.inj orgB).symm)

theorem OneApproved.of_committed {after : ConstitutionWorld} (one : world.OneApproved)
    (same : after.constitutions.committedAt = world.constitutions.committedAt) :
    after.OneApproved := by
  rw [oneApproved_iff] at one ⊢
  rwa [same]

/-- A statement that only reads, or that writes rules. -/
theorem Invariant.enter (inv : world.Invariant) (rules : Table ConstitutionRuleRow)
    (ownWrites : ∀ position row, OwnWrite world.constitutions (world.phases session) position row →
      OwnWrite world.constitutions phase position row)
    (standing : Standing world.constitutions session phase) :
    ({ world with rules := rules }.enter session phase).Invariant :=
  inv.of_step rfl Table.Spares.refl (Evolves.of_committed rfl) inv.distinctIds
    (fun position row pending =>
      ownWrites position row (inv.ownWrites position session row pending))
    standing inv.oneApproved

theorem Invariant.rollback (inv : world.Invariant) (session : ℕ) :
    (world.rollback session).Invariant := by
  refine inv.of_step rfl Table.Spares.rollback (Evolves.of_committed ?_)
    (inv.distinctIds.mono fun i a live => ⟨a, Table.hasVersion_of_rollback live, rfl⟩) ?_ trivial
    (inv.oneApproved.of_committed ?_)
  · funext position
    exact Table.committedAt_rollback
  · intro position row pending
    exact absurd pending Table.pendingAt_rollback_self
  · funext position
    exact Table.committedAt_rollback

/-- A statement that writes a version over a row that the transaction sees. -/
theorem Invariant.update (inv : world.Invariant) {after : Table ConstitutionRow} {position : ℕ}
    {seen row : ConstitutionRow}
    (visible : world.constitutions.visibleAt session position = some seen)
    (free : ∀ owner held, world.constitutions.pendingAt position = some (owner, held) →
      owner = session)
    (committed : after.committedAt = world.constitutions.committedAt)
    (pending : after.pendingAt =
      Function.update world.constitutions.pendingAt position (some (session, row)))
    (hId : row.id = seen.id)
    (ownWrites : ∀ place written,
      OwnWrite world.constitutions (world.phases session) place written → place ≠ position →
      OwnWrite world.constitutions phase place written)
    (own : OwnWrite world.constitutions phase position row)
    (standing : Standing after session phase) :
    ({ world with constitutions := after }.enter session phase).Invariant := by
  refine inv.of_step rfl (Table.Spares.update free committed pending)
    (Evolves.of_committed committed) (inv.distinctIds.mono fun i a live => ?_)
    (fun place written held => ?_) standing (inv.oneApproved.of_committed committed)
  · rcases live with found | ⟨owner, held⟩
    · change after.committedAt i = _ at found
      rw [committed] at found
      exact ⟨a, .inl found, rfl⟩
    · change after.pendingAt i = _ at held
      rw [pending] at held
      by_cases here : i = position
      · subst here
        rw [Function.update_self] at held
        obtain ⟨-, rfl⟩ := Prod.ext_iff.mp (Option.some.inj held)
        exact ⟨seen, Table.hasVersion_of_visibleAt visible, hId.symm⟩
      · rw [Function.update_of_ne here] at held
        exact ⟨a, .inr ⟨owner, held⟩, rfl⟩
  · change after.pendingAt place = _ at held
    rw [pending] at held
    refine OwnWrite.transfer (congrFun committed place) ?_
    by_cases here : place = position
    · subst here
      rw [Function.update_self] at held
      obtain ⟨-, rfl⟩ := Prod.ext_iff.mp (Option.some.inj held)
      exact own
    · rw [Function.update_of_ne here] at held
      exact ownWrites place written (inv.ownWrites place session written held) here

theorem Invariant.commit (inv : world.Invariant)
    (evolves : Evolves world.constitutions (world.constitutions.commit session))
    (oneApproved : (world.commit session).OneApproved) : (world.commit session).Invariant := by
  refine inv.of_step rfl Table.Spares.commit evolves
    (inv.distinctIds.mono fun i a live => ⟨a, Table.hasVersion_of_commit live, rfl⟩) ?_ trivial
    oneApproved
  intro position row pending
  exact absurd pending Table.pendingAt_commit_self

/-! ### The statements of a call -/

/-- Where a transaction has written nothing, it sees what is committed. -/
theorem Invariant.unwritten (inv : world.Invariant)
    (nothing : ∀ position row, ¬ OwnWrite world.constitutions (world.phases session) position row)
    (position : ℕ) (written : ConstitutionRow) :
    world.constitutions.pendingAt position ≠ some (session, written) :=
  fun pending => nothing position written (inv.ownWrites position session written pending)

theorem Invariant.insertProposal (inv : world.Invariant) {call : ProposeCall} {version : ℤ}
    (hPhase : world.phases session = .versioned call version) :
    (world.insertProposal session call version).2.Invariant := by
  have unwritten : ∀ position written,
      world.constitutions.pendingAt position ≠ some (session, written) :=
    inv.unwritten (by rw [hPhase]; exact fun _ _ h => h)
  unfold ConstitutionWorld.insertProposal
  dsimp only
  split
  · exact inv.rollback session
  · next unseen =>
    split
    · exact inv
    · next unheld =>
      have fresh : ∀ i a, Live world.constitutions i a → (call.row version).id ≠ a.id := by
        rintro i a (committed | ⟨owner, pending⟩) same
        · refine unseen (List.any_eq_true.mpr ⟨a, Table.mem_visibleRows.mpr ⟨i, ?_⟩, ?_⟩)
          · rwa [Table.visibleAt_committed (unwritten i)]
          · simp [clashes, same]
        · obtain ⟨tuple, listed, hTuple⟩ := Table.exists_tuple_of_pendingAt pending
          refine unheld (List.any_eq_true.mpr ⟨tuple, listed, ?_⟩)
          have different : owner ≠ session := fun own => unwritten i a (own ▸ pending)
          simp [hTuple, different, clashes, same]
      refine inv.of_step rfl Table.Spares.insert (Evolves.of_committed ?_) ?_ ?_ trivial
        (inv.oneApproved.of_committed ?_)
      · funext position
        exact Table.committedAt_insert
      · intro i j a b hA hB same
        rcases Table.hasVersion_of_insert hA with oldA | ⟨rfl, rfl⟩ <;>
          rcases Table.hasVersion_of_insert hB with oldB | ⟨rfl, rfl⟩
        · exact inv.distinctIds i j a b oldA oldB same
        · exact absurd same.symm (fresh i a oldA)
        · exact absurd same (fresh j b oldB)
        · rfl
      · intro position row pending
        change (world.constitutions.insert session _).pendingAt position = _ at pending
        rw [Table.pendingAt_insert] at pending
        split at pending
        · next here =>
          obtain ⟨-, rfl⟩ := Prod.ext_iff.mp (Option.some.inj pending)
          refine ⟨?_, rfl⟩
          rw [here]
          exact Table.committedAt_insert.trans Table.committedAt_length
        · exact absurd pending (unwritten position row)
      · funext position
        exact Table.committedAt_insert

/-- A version that a supersede statement sees is of a committed row of the same id, and is
superseded if it is the transaction's own. -/
theorem Invariant.seen_committed (inv : world.Invariant) {call : ApproveCall}
    {found targets : List ℕ} (hPhase : world.phases session = .superseding call found targets)
    {position : ℕ} {seen : ConstitutionRow}
    (visible : world.constitutions.visibleAt session position = some seen) :
    ∃ before, world.constitutions.committedAt position = some before ∧ before.id = seen.id ∧
      before.organizationId = seen.organizationId ∧
        (before = seen ∨ seen.status = .superseded) := by
  rcases Table.visibleAt_cases visible with own | ⟨committed, -⟩
  · have write := inv.ownWrites position session seen own
    rw [hPhase] at write
    obtain ⟨⟨-, before, committed, hId, hOrganization⟩, -, status⟩ := write
    exact ⟨before, committed, hId, hOrganization, .inr status⟩
  · exact ⟨seen, committed, rfl, rfl, .inl rfl⟩

theorem Invariant.supersedeAt (inv : world.Invariant) {call : ApproveCall} {found rest : List ℕ}
    {position : ℕ} (hPhase : world.phases session = .superseding call found (position :: rest)) :
    (world.supersedeAt session call found position rest).Invariant := by
  have standing := inv.standing session
  rw [hPhase] at standing
  obtain ⟨has, inFound, ahead, covered⟩ := standing
  obtain ⟨reached, hReached, hOrganization, status⟩ := ahead position List.mem_cons_self
  have aheadRest : ∀ place ∈ rest, Ahead world.constitutions call place := fun place listed =>
    ahead place (List.mem_cons_of_mem _ listed)
  have inFoundRest : rest ⊆ found := fun place listed => inFound (List.mem_cons_of_mem _ listed)
  have coveredRest : ∀ place ∈ found, place ∉ rest → place ≠ position →
      Covered world.constitutions session call place := fun place listed passed elsewhere =>
    covered place listed fun h => (List.mem_cons.mp h).elim elsewhere passed
  unfold ConstitutionWorld.supersedeAt
  split
  · exact inv
  · next after ran =>
    rcases Table.updateAt_cases ran with ⟨rfl, skipped⟩ | ⟨seen, visible, holds, free, hC, hP⟩
    · refine inv.enter world.rules (fun place row own => by rwa [hPhase] at own) ⟨has, inFoundRest,
        aheadRest, fun place listed passed => ?_⟩
      by_cases here : place = position
      · subst here
        refine ⟨reached, hReached, hOrganization, .inr ?_⟩
        by_cases own : ∃ written, world.constitutions.pendingAt place = some (session, written)
        · obtain ⟨written, pending⟩ := own
          have write := inv.ownWrites place session written pending
          rw [hPhase] at write
          exact .inr ⟨written, pending, write.2.2⟩
        · -- The row that the statement sees is no longer approved.
          have visible := skipped reached (by
            rw [Table.visibleAt_committed (not_exists.mp own), hReached])
          refine .inl (status.resolve_left fun approved => ?_)
          simp [hOrganization, approved] at visible
      · exact coveredRest place listed passed here
    · simp only [Bool.and_eq_true, decide_eq_true_eq] at holds
      have evolves : Evolves world.constitutions after := Evolves.of_committed hC
      obtain ⟨before, hBefore, hId, hSame, -⟩ := inv.seen_committed hPhase visible
      refine inv.update visible free hC hP rfl (fun place written own _ => by rwa [hPhase] at own)
        ⟨⟨holds.1, before, hBefore, hId, hSame⟩, inFound List.mem_cons_self, rfl⟩
        ⟨has.evolves evolves, inFoundRest, fun place listed =>
          (aheadRest place listed).evolves evolves, fun place listed passed => ?_⟩
      by_cases here : place = position
      · subst here
        have held := congrFun hP place
        rw [Function.update_self] at held
        exact ⟨reached, by rw [hC]; exact hReached, hOrganization, .inr (.inr ⟨_, held, rfl⟩)⟩
      · refine (coveredRest place listed passed here).evolves evolves fun row pending => ?_
        rwa [hP, Function.update_of_ne here]

theorem Invariant.approveCandidate (inv : world.Invariant) {call : ApproveCall} {found : List ℕ}
    (hPhase : world.phases session = .superseding call found []) :
    (world.approveCandidate session call found).Invariant := by
  have standing := inv.standing session
  rw [hPhase] at standing
  obtain ⟨⟨candidateAt, candidate, hCandidate, isCandidate⟩, -, -, covered⟩ := standing
  have coveredAll : ∀ place ∈ found, Covered world.constitutions session call place :=
    fun place listed => covered place listed List.not_mem_nil
  unfold ConstitutionWorld.approveCandidate
  split
  · next missing =>
    -- The candidate is still there, under this transaction's own version or as it was committed.
    have listed : candidateAt ∈
        world.constitutions.snapshot session (ConstitutionWorld.isCandidate call) := by
      refine Table.mem_snapshot.mpr ?_
      by_cases own : ∃ written, world.constitutions.pendingAt candidateAt = some (session, written)
      · obtain ⟨written, pending⟩ := own
        obtain ⟨before, hBefore, hId, hSame, -⟩ :=
          inv.seen_committed hPhase (Table.visibleAt_own pending)
        obtain rfl := Option.some.inj (hBefore.symm.trans hCandidate)
        refine ⟨written, Table.visibleAt_own pending, ?_⟩
        rwa [ConstitutionWorld.isCandidate, ← hId, ← hSame]
      · exact ⟨candidate, by rw [Table.visibleAt_committed (not_exists.mp own), hCandidate],
          isCandidate⟩
    rw [missing] at listed
    cases listed
  · next position others listing =>
    have listed : position ∈
        world.constitutions.snapshot session (ConstitutionWorld.isCandidate call) := by
      rw [listing]
      exact List.mem_cons_self
    split
    · exact inv
    · next after ran =>
      rcases Table.updateAt_cases ran with ⟨rfl, skipped⟩ | ⟨seen, visible, holds, free, hC, hP⟩
      · obtain ⟨seen, visible, holds⟩ := Table.mem_snapshot.mp listed
        rw [skipped seen visible] at holds
        cases holds
      · simp only [ConstitutionWorld.isCandidate, Bool.and_eq_true, decide_eq_true_eq] at holds
        have evolves : Evolves world.constitutions after := Evolves.of_committed hC
        obtain ⟨before, hBefore, hId, hSame, -⟩ := inv.seen_committed hPhase visible
        let written := markApproved call seen
        have own : OwnWrite world.constitutions (.approved call found
            (after.visibleAt session position)) position written :=
          ⟨⟨holds.1, before, hBefore, hId, hSame⟩, .inr ⟨holds.2, rfl⟩⟩
        have approves : Approves after session call :=
          ⟨position, written, by rw [hP, Function.update_self], holds.1, holds.2, rfl⟩
        refine inv.update visible free hC hP rfl ?_ own ⟨fun place listed => ?_, approves⟩
        · intro place written own _
          rw [hPhase] at own
          exact ⟨own.1, .inl own.2⟩
        · by_cases here : place = position
          · subst here
            exact ⟨before, by rw [hC]; exact hBefore, hSame.trans holds.1,
              .inl (hId.trans holds.2)⟩
          · refine (coveredAll place listed).evolves evolves fun row pending => ?_
            rwa [hP, Function.update_of_ne here]

/-! ### Commits -/

theorem evolves_commit {table : Table ConstitutionRow}
    (own : ∀ position row written, table.committedAt position = some row →
      table.pendingAt position = some (session, written) →
      written.id = row.id ∧ written.organizationId = row.organizationId ∧
      (row.status = .approved → written.status = .approved ∨ written.status = .superseded) ∧
      (row.status = .superseded → written.status = .superseded)) :
    Evolves table (table.commit session) := by
  intro position row committed
  rw [Table.committedAt_commit]
  by_cases held : ∃ written, table.pendingAt position = some (session, written)
  · obtain ⟨written, pending⟩ := held
    exact ⟨written, Table.visibleAt_own pending, own position row written committed pending⟩
  · rw [Table.visibleAt_committed (not_exists.mp held)]
    exact ⟨row, committed, rfl, rfl, .inl, id⟩

theorem Invariant.evolves_unwritten (inv : world.Invariant)
    (nothing : ∀ position row, ¬ OwnWrite world.constitutions (world.phases session) position row) :
    Evolves world.constitutions (world.constitutions.commit session) :=
  evolves_commit fun position _ written _ pending =>
    absurd pending (inv.unwritten nothing position written)

theorem Invariant.commit_unwritten (inv : world.Invariant)
    (nothing : ∀ position row, ¬ OwnWrite world.constitutions (world.phases session) position row) :
    (world.commit session).Invariant := by
  refine inv.commit (inv.evolves_unwritten nothing) (inv.oneApproved.of_committed ?_)
  funext position
  exact Table.committedAt_commit.trans
    (Table.visibleAt_committed (inv.unwritten nothing position))

theorem Invariant.evolves_proposed (inv : world.Invariant) {proposal : ConstitutionProposal}
    (hPhase : world.phases session = .proposed proposal) :
    Evolves world.constitutions (world.constitutions.commit session) :=
  evolves_commit fun position row written committed pending => by
    have write := inv.ownWrites position session written pending
    rw [hPhase] at write
    rw [write.1] at committed
    cases committed

theorem Invariant.commit_proposed (inv : world.Invariant) {proposal : ConstitutionProposal}
    (hPhase : world.phases session = .proposed proposal) : (world.commit session).Invariant := by
  refine inv.commit (inv.evolves_proposed hPhase) (oneApproved_iff.mpr ?_)
  -- What a proposal writes is not approved.
  have old : ∀ i a, (world.constitutions.commit session).committedAt i = some a →
      a.status = .approved → world.constitutions.committedAt i = some a := by
    intro i a committed approved
    rw [Table.committedAt_commit] at committed
    rcases Table.visibleAt_cases committed with own | ⟨committed, -⟩
    · have write := inv.ownWrites i session a own
      rw [hPhase] at write
      rw [write.2] at approved
      cases approved
    · exact committed
  intro i j a b hA hB statusA statusB same
  exact oneApproved_iff.mp inv.oneApproved i j a b (old i a hA statusA) (old j b hB statusB)
    statusA statusB same

section Read

variable {call : ApproveCall} {found : List ℕ} {proposal : ConstitutionProposal}

theorem Invariant.evolves_read (inv : world.Invariant)
    (hPhase : world.phases session = .read call found proposal)
    (uncontested : world.Uncontested (session, .advance)) :
    Evolves world.constitutions (world.constitutions.commit session) :=
  evolves_commit fun position row written committed pending => by
    have write := inv.ownWrites position session written pending
    rw [hPhase] at write
    obtain ⟨⟨hOrganization, before, hBefore, hId, hSame⟩, status⟩ := write
    obtain rfl := Option.some.inj (hBefore.symm.trans committed)
    refine ⟨hId.symm, hSame.symm, fun _ => status.elim (fun h => .inr h.2) (fun h => .inl h.2), ?_⟩
    rintro superseded
    rcases status with ⟨-, status⟩ | ⟨candidate, -⟩
    · exact status
    · simp only [Uncontested, hPhase] at uncontested
      exact absurd superseded ((uncontested position _ committed (hSame.trans hOrganization)).2
        (hId.trans candidate))

/-- The tuple of the candidate is the only one that the transaction approves. -/
theorem Invariant.own_approved (inv : world.Invariant)
    (hPhase : world.phases session = .read call found proposal) {position : ℕ}
    {row : ConstitutionRow}
    (pending : world.constitutions.pendingAt position = some (session, row))
    (approved : row.status = .approved) :
    row.organizationId = call.organizationId ∧ row.id = call.constitutionId := by
  have write := inv.ownWrites position session row pending
  rw [hPhase] at write
  obtain ⟨⟨hOrganization, -⟩, ⟨-, superseded⟩ | ⟨candidate, -⟩⟩ := write
  · rw [superseded] at approved
    cases approved
  · exact ⟨hOrganization, candidate⟩

/-- Beside the candidate that is committed, every approved constitution of the organization was
found by the supersede statement and is overwritten. -/
theorem Invariant.candidate_alone (inv : world.Invariant)
    (hPhase : world.phases session = .read call found proposal)
    (uncontested : world.Uncontested (session, .advance)) {i j : ℕ} {a b : ConstitutionRow}
    (own : world.constitutions.pendingAt i = some (session, a)) (statusA : a.status = .approved)
    (committed : world.constitutions.committedAt j = some b)
    (others : ∀ written, world.constitutions.pendingAt j ≠ some (session, written))
    (statusB : b.status = .approved) (same : a.organizationId = b.organizationId) : i = j := by
  obtain ⟨hOrganization, hId⟩ := inv.own_approved hPhase own statusA
  have candidate : b.id = call.constitutionId → i = j := fun h =>
    inv.distinctIds i j a b (.inr ⟨session, own⟩) (.inl committed) (hId.trans h.symm)
  have standing := inv.standing session
  simp only [Uncontested, hPhase] at uncontested standing
  rcases (uncontested j b committed (same.symm.trans hOrganization)).1 statusB with h | listed
  · exact candidate h
  · obtain ⟨row, hRow, -, h | superseded | ⟨written, pending, -⟩⟩ := standing.1 j listed
    · obtain rfl := Option.some.inj (hRow.symm.trans committed)
      exact candidate h
    · obtain rfl := Option.some.inj (hRow.symm.trans committed)
      rw [superseded] at statusB
      cases statusB
    · exact absurd pending (others written)

theorem Invariant.commit_read (inv : world.Invariant)
    (hPhase : world.phases session = .read call found proposal)
    (uncontested : world.Uncontested (session, .advance)) : (world.commit session).Invariant := by
  refine inv.commit (inv.evolves_read hPhase uncontested) (oneApproved_iff.mpr ?_)
  intro i j a b hA hB statusA statusB same
  change (world.constitutions.commit session).committedAt _ = _ at hA hB
  rw [Table.committedAt_commit] at hA hB
  rcases Table.visibleAt_cases hA with ownA | ⟨committedA, othersA⟩ <;>
    rcases Table.visibleAt_cases hB with ownB | ⟨committedB, othersB⟩
  · have idA := (inv.own_approved hPhase ownA statusA).2
    have idB := (inv.own_approved hPhase ownB statusB).2
    exact inv.distinctIds i j a b (.inr ⟨session, ownA⟩) (.inr ⟨session, ownB⟩)
      (idA.trans idB.symm)
  · exact inv.candidate_alone hPhase uncontested ownA statusA committedB othersB statusB same
  · exact (inv.candidate_alone hPhase uncontested ownB statusB committedA othersA statusA
      same.symm).symm
  · exact oneApproved_iff.mp inv.oneApproved i j a b committedA committedB statusA statusB same

end Read

/-! ### Runs -/

theorem Invariant.advance (inv : world.Invariant)
    (uncontested : world.Uncontested (session, .advance)) :
    (world.advance session).2.Invariant := by
  unfold ConstitutionWorld.advance
  split
  · exact inv
  · next call hPhase =>
    exact inv.enter world.rules (by rw [hPhase]; exact fun _ _ h => h) trivial
  · next call version hPhase => exact inv.insertProposal hPhase
  · next call constitution hPhase =>
    split
    · exact inv.rollback session
    · exact inv.enter _ (by rw [hPhase]; exact fun _ _ h => h) trivial
  · next proposal hPhase => exact inv.commit_proposed hPhase
  · next call hPhase =>
    have nothing : ∀ position row,
        ¬ OwnWrite world.constitutions (world.phases session) position row := by
      rw [hPhase]
      exact fun _ _ h => h
    split
    · exact inv.commit_unwritten nothing
    · next row hRow =>
      have listed := List.mem_of_find?_eq_some hRow
      obtain ⟨position, visible⟩ := Table.mem_visibleRows.mp listed
      have isCandidate := List.find?_some hRow
      rw [Bool.and_eq_true] at isCandidate
      rw [Table.visibleAt_committed (inv.unwritten nothing position)] at visible
      exact inv.enter world.rules (by rw [hPhase]; exact fun _ _ h => h.elim)
        ⟨position, row, visible, isCandidate.1⟩
  · next call hPhase =>
    have nothing : ∀ position row,
        ¬ OwnWrite world.constitutions (world.phases session) position row := by
      rw [hPhase]
      exact fun _ _ h => h
    have standing := inv.standing session
    rw [hPhase] at standing
    refine inv.enter world.rules (by rw [hPhase]; exact fun _ _ h => h.elim)
      ⟨standing, List.Subset.refl _, fun position listed => ?_,
        fun position listed passed => absurd listed passed⟩
    obtain ⟨row, visible, holds⟩ := Table.mem_snapshot.mp listed
    rw [Table.visibleAt_committed (inv.unwritten nothing position)] at visible
    simp only [Bool.and_eq_true, decide_eq_true_eq] at holds
    exact ⟨row, visible, holds.1, .inl holds.2⟩
  · next call found position rest hPhase => exact inv.supersedeAt hPhase
  · next call found hPhase => exact inv.approveCandidate hPhase
  · next call found constitution hPhase =>
    have standing := inv.standing session
    rw [hPhase] at standing
    exact inv.enter world.rules (by rw [hPhase]; exact fun _ _ h => h) standing
  · next call found proposal hPhase => exact inv.commit_read hPhase uncontested

theorem Invariant.step (inv : world.Invariant) {action : ℕ × Move}
    (uncontested : world.Uncontested action) : (world.step action).2.Invariant := by
  obtain ⟨session, move⟩ := action
  unfold ConstitutionWorld.step
  split
  · next call hMove hPhase =>
    exact inv.enter world.rules (by rw [hPhase]; exact fun _ _ h => h) trivial
  · next call hMove hPhase =>
    split
    · exact inv
    · exact inv.enter world.rules (by rw [hPhase]; exact fun _ _ h => h) trivial
  · exact inv
  · exact inv
  · next hMove =>
    dsimp only at hMove
    subst hMove
    exact inv.advance uncontested
  · exact inv
  · exact inv.rollback session

/-- A statement of an open transaction, and a rollback, leave the committed rows as they are. -/
theorem committedAt_advance (world : ConstitutionWorld) (session : ℕ) :
    (world.advance session).2.constitutions.committedAt = world.constitutions.committedAt ∨
      (world.advance session).2 = world.commit session ∧
        ((∃ proposal, world.phases session = .proposed proposal) ∨
          (∃ call, world.phases session = .approving call) ∨
          ∃ call found proposal, world.phases session = .read call found proposal) := by
  unfold ConstitutionWorld.advance
  split
  · exact .inl rfl
  · exact .inl rfl
  · refine .inl ?_
    unfold ConstitutionWorld.insertProposal
    dsimp only
    split
    · exact funext fun position => Table.committedAt_rollback
    · split
      · rfl
      · exact funext fun position => Table.committedAt_insert
  · refine .inl ?_
    split
    · exact funext fun position => Table.committedAt_rollback
    · rfl
  · next proposal hPhase => exact .inr ⟨rfl, .inl ⟨proposal, hPhase⟩⟩
  · next call hPhase =>
    split
    · exact .inr ⟨rfl, .inr (.inl ⟨call, hPhase⟩)⟩
    · exact .inl rfl
  · exact .inl rfl
  · refine .inl ?_
    unfold ConstitutionWorld.supersedeAt
    split
    · rfl
    · next after ran =>
      rcases Table.updateAt_cases ran with ⟨rfl, -⟩ | ⟨-, -, -, -, hC, -⟩
      · rfl
      · exact hC
  · refine .inl ?_
    unfold ConstitutionWorld.approveCandidate
    split
    · rfl
    · split
      · rfl
      · next after ran =>
        rcases Table.updateAt_cases ran with ⟨rfl, -⟩ | ⟨-, -, -, -, hC, -⟩
        · rfl
        · exact hC
  · exact .inl rfl
  · next call found proposal hPhase => exact .inr ⟨rfl, .inr (.inr ⟨call, found, proposal, hPhase⟩)⟩

theorem Invariant.evolves_step (inv : world.Invariant) {action : ℕ × Move}
    (uncontested : world.Uncontested action) :
    Evolves world.constitutions (world.step action).2.constitutions := by
  obtain ⟨session, move⟩ := action
  unfold ConstitutionWorld.step
  split
  · exact Evolves.of_committed rfl
  · split <;> exact Evolves.of_committed rfl
  · exact Evolves.of_committed rfl
  · exact Evolves.of_committed rfl
  · next hMove =>
    dsimp only at hMove
    subst hMove
    rcases committedAt_advance world session with same | ⟨commits, hPhase⟩
    · exact Evolves.of_committed same
    · change Evolves _ (world.advance session).2.constitutions
      rw [commits]
      rcases hPhase with ⟨proposal, hPhase⟩ | ⟨call, hPhase⟩ | ⟨call, found, proposal, hPhase⟩
      · exact inv.evolves_proposed hPhase
      · exact inv.evolves_unwritten (by rw [hPhase]; exact fun _ _ h => h)
      · exact inv.evolves_read hPhase uncontested
  · exact Evolves.of_committed rfl
  · exact Evolves.of_committed (funext fun position => Table.committedAt_rollback)

/-- A contested commit leaves a second approved constitution behind, or brings a superseded one
back. -/
theorem Invariant.contested (inv : world.Invariant) {action : ℕ × Move}
    (contested : ¬ world.Uncontested action) :
    ¬ (world.step action).2.OneApproved ∨
      ∃ row ∈ world.constitutions.committedRows, row.status = .superseded ∧
        ∃ later ∈ (world.step action).2.constitutions.committedRows,
          later.id = row.id ∧ later.status = .approved := by
  obtain ⟨session, move⟩ := action
  unfold Uncontested at contested
  split at contested
  · next call found proposal hMove hPhase =>
    dsimp only at hMove hPhase
    subst hMove
    have commits : (world.step (session, .advance)).2 = world.commit session := by
      simp only [ConstitutionWorld.step, ConstitutionWorld.advance, hPhase]
    have standing := inv.standing session
    rw [hPhase] at standing
    obtain ⟨-, candidateAt, candidate, pending, hOrganization, hId, status⟩ := standing
    have committed : (world.commit session).constitutions.committedAt candidateAt =
        some candidate :=
      Table.committedAt_commit.trans (Table.visibleAt_own pending)
    rw [commits]
    simp only [not_forall] at contested
    obtain ⟨position, row, hRow, sameOrg, broken⟩ := contested
    by_cases superseded : row.id = call.constitutionId ∧ row.status = .superseded
    · exact .inr ⟨row, Table.mem_committedRows.mpr ⟨position, hRow⟩, superseded.2, candidate,
        Table.mem_committedRows.mpr ⟨candidateAt, committed⟩, hId.trans superseded.1.symm, status⟩
    · have unfound : row.status = .approved ∧ row.id ≠ call.constitutionId ∧ position ∉ found := by
        by_contra otherwise
        refine broken ⟨fun approved => ?_, fun h h' => superseded ⟨h, h'⟩⟩
        by_contra neither
        exact otherwise ⟨approved, not_or.mp neither⟩
      obtain ⟨approved, notCandidate, notFound⟩ := unfound
      have others : ∀ written,
          world.constitutions.pendingAt position ≠ some (session, written) := by
        intro written own
        have write := inv.ownWrites position session written own
        rw [hPhase] at write
        obtain ⟨⟨-, before, hBefore, sameId, -⟩, ⟨listed, -⟩ | ⟨isCandidate, -⟩⟩ := write
        · exact notFound listed
        · obtain rfl := Option.some.inj (hBefore.symm.trans hRow)
          exact notCandidate (sameId.trans isCandidate)
      have kept : (world.commit session).constitutions.committedAt position = some row :=
        Table.committedAt_commit.trans ((Table.visibleAt_committed others).trans hRow)
      refine .inl fun one => ?_
      have here := oneApproved_iff.mp one position candidateAt row candidate kept committed approved
        status (sameOrg.trans hOrganization.symm)
      exact others candidate (here ▸ pending)
  · exact absurd trivial contested

/-- Every step of a run is uncontested where it is taken. -/
def UncontestedRun (world : ConstitutionWorld) (actions : List (ℕ × Move)) : Prop :=
  ∀ earlier action later, actions = earlier ++ action :: later →
    (Machine.final ConstitutionWorld.step world earlier).Uncontested action

theorem uncontestedRun_cons {action : ℕ × Move} {rest : List (ℕ × Move)} :
    UncontestedRun world (action :: rest) ↔
      world.Uncontested action ∧ UncontestedRun (world.step action).2 rest := by
  constructor
  · intro run
    refine ⟨run [] action rest rfl, ?_⟩
    rintro earlier next later rfl
    exact run (action :: earlier) next later rfl
  · rintro ⟨first, run⟩ earlier next later split
    rcases earlier with _ | ⟨head, earlier⟩
    · obtain ⟨rfl, -⟩ := List.cons.inj split
      exact first
    · obtain ⟨rfl, rfl⟩ := List.cons.inj split
      exact run earlier next later rfl

theorem uncontestedRun_append {taken further : List (ℕ × Move)} :
    UncontestedRun world (taken ++ further) ↔ UncontestedRun world taken ∧
      UncontestedRun (Machine.final ConstitutionWorld.step world taken) further := by
  induction taken generalizing world with
  | nil =>
    refine ⟨fun run => ⟨fun earlier action later split => ?_, run⟩, And.right⟩
    simp at split
  | cons action rest ih =>
    rw [List.cons_append, uncontestedRun_cons, uncontestedRun_cons, ih, and_assoc]
    rfl

theorem Invariant.run (inv : world.Invariant) {actions : List (ℕ × Move)}
    (run : UncontestedRun world actions) :
    (Machine.final ConstitutionWorld.step world actions).Invariant := by
  induction actions generalizing world with
  | nil => exact inv
  | cons action rest ih =>
    obtain ⟨first, later⟩ := uncontestedRun_cons.mp run
    exact ih (inv.step first) later

theorem Invariant.evolves_run (inv : world.Invariant) {actions : List (ℕ × Move)}
    (run : UncontestedRun world actions) :
    Evolves world.constitutions
      (Machine.final ConstitutionWorld.step world actions).constitutions := by
  induction actions generalizing world with
  | nil => exact Evolves.of_committed rfl
  | cons action rest ih =>
    obtain ⟨first, later⟩ := uncontestedRun_cons.mp run
    exact (inv.evolves_step first).trans (ih (inv.step first) later)

theorem Sound.tail {action : ℕ × Move} {rest : List (ℕ × Move)}
    (sound : world.Sound (action :: rest)) : (world.step action).2.Sound rest where
  oneApproved taken initial :=
    sound.oneApproved (action :: taken) (List.cons_prefix_cons.mpr ⟨rfl, initial⟩)
  supersededForGood taken further initial :=
    sound.supersededForGood (action :: taken) further (List.cons_prefix_cons.mpr ⟨rfl, initial⟩)

theorem Invariant.sound (inv : world.Invariant) {actions : List (ℕ × Move)}
    (run : UncontestedRun world actions) : world.Sound actions := by
  constructor
  · rintro taken ⟨further, rfl⟩
    exact (inv.run (uncontestedRun_append.mp run).1).oneApproved
  · rintro taken further ⟨rest, rfl⟩ row hRow superseded later hLater sameId approved
    obtain ⟨runTaken, runFurther⟩ :=
      uncontestedRun_append.mp (uncontestedRun_append.mp run).1
    have middle := inv.run runTaken
    rw [Machine.final_append] at hLater
    obtain ⟨i, hRow⟩ := Table.mem_committedRows.mp hRow
    obtain ⟨j, hLater⟩ := Table.mem_committedRows.mp hLater
    obtain ⟨kept, hKept, keptId, -, -, keptStatus⟩ := middle.evolves_run runFurther i row hRow
    have here := (middle.run runFurther).distinctIds i j kept later (.inl hKept) (.inl hLater)
      (keptId.trans sameId.symm)
    rw [here] at hKept
    obtain rfl := Option.some.inj (hKept.symm.trans hLater)
    rw [keptStatus superseded] at approved
    cases approved

theorem Invariant.uncontested (inv : world.Invariant) {actions : List (ℕ × Move)}
    (sound : world.Sound actions) : UncontestedRun world actions := by
  induction actions generalizing world with
  | nil =>
    intro earlier action later split
    simp at split
  | cons action rest ih =>
    have first : world.Uncontested action := by
      by_contra contested
      rcases inv.contested contested with second | ⟨row, hRow, superseded, later, hLater, h, h'⟩
      · exact second (sound.oneApproved [action] (by simp))
      · exact sound.supersededForGood [] [action] (by simp) row hRow superseded later hLater h h'
    exact uncontestedRun_cons.mpr ⟨first, ih (inv.step first) sound.tail⟩

end Steps

theorem Quiescent.invariant {world : ConstitutionWorld} (start : world.Quiescent)
    (one : world.OneApproved) : world.Invariant where
  distinctIds := by
    have committed : ∀ i a, Live world.constitutions i a →
        world.constitutions.committedAt i = some a := by
      rintro i a (committed | ⟨owner, pending⟩)
      · exact committed
      · rw [start.settled] at pending
        cases pending
    intro i j a b hA hB same
    exact Table.unique_committedRows.mp start.primaryKey i j a b a.id (committed i a hA)
      (committed j b hB) rfl (congrArg some same.symm)
  ownWrites position owner row pending := by
    rw [start.settled] at pending
    cases pending
  standing session := by
    rw [start.idle]
    trivial
  oneApproved := one

/-- In a run of any number of transactions there is at most one approved constitution for each
organization, and no superseded one comes back, exactly when every commit of an approval is
uncontested. -/
theorem sound_iff_uncontested (world : ConstitutionWorld) (start : world.Quiescent)
    (one : world.OneApproved) (actions : List (ℕ × Move)) :
    world.Sound actions ↔ ∀ earlier action later, actions = earlier ++ action :: later →
      (Machine.final step world earlier).Uncontested action :=
  ⟨(start.invariant one).uncontested, (start.invariant one).sound⟩

/-! ### Two proposals of one organization -/

def acmeProposal (id : String) (version : ℤ) : ConstitutionRow where
  id := id
  organizationId := "acme"
  version := version
  status := .proposed
  title := "Business Constitution"
  proposedByUserId := some "jo"
  approvedByUserId := none
  approvedAt := none
  createdAt := 0
  updatedAt := 0

def acmeWorld : ConstitutionWorld where
  constitutions := [⟨some (acmeProposal "first" 1), none⟩, ⟨some (acmeProposal "second" 2), none⟩]
  rules := []
  phases _ := .idle

def acmeApproval (constitutionId : String) : ApproveCall where
  organizationId := "acme"
  constitutionId := constitutionId
  approvedByUserId := "jo"
  actorKind := .human
  supersededAt := 1
  approvedAt := 1
  updatedAt := 1

theorem acmeWorld_quiescent : acmeWorld.Quiescent where
  idle _ := rfl
  settled position := by
    rcases position with _ | _ | _ <;> rfl
  primaryKey := by decide

theorem acmeWorld_oneApproved : acmeWorld.OneApproved := by
  unfold OneApproved
  decide

/-- The next statements of a session. -/
def advances (session count : ℕ) : List (ℕ × Move) := List.replicate count (session, .advance)

/-- An approval alone, from its call to its commit. -/
def approvesFirst : List (ℕ × Move) := (0, .approve (acmeApproval "first")) :: advances 0 5

theorem approvesFirst_uncontested : UncontestedRun acmeWorld approvesFirst := by
  have commit : (Machine.final step acmeWorld
      ((0, .approve (acmeApproval "first")) :: advances 0 4)).Uncontested (0, .advance) := by
    rintro (_ | _ | position) row committed -
    · obtain rfl := Option.some.inj committed
      exact ⟨nofun, fun _ => nofun⟩
    · obtain rfl := Option.some.inj committed
      exact ⟨nofun, fun _ => nofun⟩
    · cases committed
  have run := @uncontestedRun_cons
  exact run.mpr ⟨trivial, run.mpr ⟨trivial, run.mpr ⟨trivial, run.mpr ⟨trivial, run.mpr ⟨trivial,
    run.mpr ⟨commit, fun _ _ _ split => by simp at split⟩⟩⟩⟩⟩⟩

theorem sound_iff_uncontested_acme : acmeWorld.Sound approvesFirst :=
  (sound_iff_uncontested acmeWorld acmeWorld_quiescent acmeWorld_oneApproved approvesFirst).mpr
    approvesFirst_uncontested

/-- Two approvals whose statements alternate. -/
def approvesBoth : List (ℕ × Move) :=
  (0, .approve (acmeApproval "first")) :: (1, .approve (acmeApproval "second")) ::
    (List.replicate 5 [(0, .advance), (1, .advance)]).flatten

/-- An approval that has read its candidate, and two more that run from end to end before it goes
on. -/
def approvesThrice : List (ℕ × Move) :=
  (0, .approve (acmeApproval "first")) :: (0, .advance) ::
    (1, .approve (acmeApproval "first")) :: advances 1 5 ++
    (2, .approve (acmeApproval "second")) :: advances 2 6

/-- Neither of two alternating approvals finds anything to supersede, and both commit; and an
approval goes on to approve its candidate, which has been superseded since it was read. -/
theorem approvals_unsound :
    acmeWorld.Quiescent ∧ acmeWorld.OneApproved ∧ ¬ acmeWorld.Sound approvesBoth ∧
      ¬ acmeWorld.Sound (approvesThrice ++ advances 0 5) := by
  refine ⟨acmeWorld_quiescent, acmeWorld_oneApproved, fun sound => ?_, fun sound => ?_⟩
  · have one := sound.oneApproved approvesBoth (List.prefix_refl _)
    unfold OneApproved at one
    revert one
    decide
  · let first : ConstitutionRow := { acmeProposal "first" 1 with
      approvedByUserId := some "jo", approvedAt := some 1, updatedAt := 1 }
    have final := sound.supersededForGood approvesThrice (advances 0 5) (List.prefix_refl _)
      { first with status := .superseded } (by decide) rfl
      { first with status := .approved } (by decide) rfl
    exact final rfl

end ConstitutionWorld

end Donna
