import Donna.Policy.Lexis
import Donna.Policy.ScopeTree

/-! The comparison of scopes on JSON.  Two JSON values compare equal just when they are the same up
to the order of keys, at every level. -/

namespace Donna

open Js

namespace ScopeValue

/-- A value that JSON has: no array of it has a hole and no object has a key twice. -/
inductive IsJson : ScopeValue → Prop
  | null : IsJson (.primitive .null)
  | boolean (b : Bool) : IsJson (.primitive (.boolean b))
  | number (q : ℚ) : IsJson (.primitive (.number (.finite q)))
  | string (s : JsString) : IsJson (.primitive (.string s))
  | array {items : List (Option ScopeValue)} (full : none ∉ items)
      (json : ∀ item, some item ∈ items → IsJson item) : IsJson (.array items)
  | object {fields : List (JsString × ScopeValue)} (distinct : (fields.map Prod.fst).Nodup)
      (json : ∀ field ∈ fields, IsJson field.2) : IsJson (.object fields)

theorem IsJson.noBigInt {value : ScopeValue} (json : value.IsJson) : ¬ value.HoldsBigInt := by
  intro holds
  induction holds with
  | here => cases json
  | item present _ ih =>
    cases json with
    | array _ inner => exact ih (inner _ present)
  | field present _ ih =>
    cases json with
    | object _ inner => exact ih (inner _ present)

end ScopeValue

/-- Structural equality up to the order of keys, at every level. -/
inductive SameJson : ScopeValue → ScopeValue → Prop
  | primitive (value : Primitive) : SameJson (.primitive value) (.primitive value)
  | array {left right : List (Option ScopeValue)}
      (items : List.Forall₂ (Option.Rel SameJson) left right) :
      SameJson (.array left) (.array right)
  | object {left right : List (JsString × ScopeValue)}
      (keys : (left.map Prod.fst).Perm (right.map Prod.fst))
      (values : ∀ key x y, (key, x) ∈ left → (key, y) ∈ right → SameJson x y) :
      SameJson (.object left) (.object right)

/-- JSON primitives are what they are written as. -/
theorem Primitive.canonical_injective {p q : Primitive}
    (left : (ScopeValue.primitive p).IsJson) (right : (ScopeValue.primitive q).IsJson)
    (same : p.canonical = q.canonical) : p = q := by
  cases left <;> cases right <;> simp_all [Primitive.canonical]

/-- Relations that agree on the items relate the same lists. -/
theorem forall₂_congr_of_mem {α β : Type} {R S : α → β → Prop} {left : List α} {right : List β}
    (agree : ∀ x ∈ left, ∀ y ∈ right, (R x y ↔ S x y)) :
    List.Forall₂ R left right ↔ List.Forall₂ S left right := by
  induction left generalizing right with
  | nil => simp
  | cons x left ih =>
    cases right with
    | nil => simp
    | cons y right =>
      rw [List.forall₂_cons, List.forall₂_cons, agree x (by simp) y (by simp),
        ih fun x' inLeft y' inRight => agree x' (by simp [inLeft]) y' (by simp [inRight])]

/-- Without holes an array is written with its own items. -/
theorem forall₂_written_iff {R : ScopeValue → ScopeValue → Prop}
    {left right : List (Option ScopeValue)} (leftFull : none ∉ left) (rightFull : none ∉ right) :
    List.Forall₂ (Option.Rel R) (Json.written left) (Json.written right) ↔
      List.Forall₂ (Option.Rel R) left right := by
  cases left with
  | nil =>
    cases right with
    | nil => simp [Json.written]
    | cons y right => cases y <;> simp_all [Json.written]
  | cons x left =>
    cases right with
    | nil => cases x <;> simp_all [Json.written]
    | cons y right => rfl

theorem option_rel_congr {α β : Type} {R S : α → β → Prop} {x : Option α} {y : Option β}
    (agree : ∀ a b, x = some a → y = some b → (R a b ↔ S a b)) :
    Option.Rel R x y ↔ Option.Rel S x y := by
  cases x <;> cases y <;> simp_all

theorem sameJson_array_iff {left right : List (Option ScopeValue)} :
    SameJson (.array left) (.array right) ↔ List.Forall₂ (Option.Rel SameJson) left right := by
  refine ⟨fun same => ?_, .array⟩
  cases same with
  | array items => exact items

theorem sameJson_object_iff {left right : List (JsString × ScopeValue)} :
    SameJson (.object left) (.object right) ↔ (left.map Prod.fst).Perm (right.map Prod.fst) ∧
      ∀ key x y, (key, x) ∈ left → (key, y) ∈ right → SameJson x y := by
  refine ⟨fun same => ?_, fun h => .object h.1 h.2⟩
  cases same with
  | object keys values => exact ⟨keys, values⟩

/-- The tree of a JSON value tells it from every other up to the order of keys. -/
theorem canonical_eq_iff {a b : ScopeValue} (left : a.IsJson) (right : b.IsJson) :
    a.canonical = b.canonical ↔ SameJson a b := by
  induction a using ScopeValue.induction generalizing b with
  | primitive p =>
    cases b with
    | primitive q =>
      constructor
      · intro same
        rw [Primitive.canonical_injective left right same]
        exact .primitive q
      · rintro ⟨⟩
        rfl
    | date => cases right
    | array items => exact iff_of_false (p.canonical_ne_array _) (by rintro ⟨⟩)
    | object fields => exact iff_of_false (p.canonical_ne_object _) (by rintro ⟨⟩)
  | date date => cases left
  | array items ih =>
    cases b with
    | primitive q => exact iff_of_false (Ne.symm (q.canonical_ne_array _)) (by rintro ⟨⟩)
    | date => cases right
    | array others =>
      cases left with
      | array leftFull leftJson =>
        cases right with
        | array rightFull rightJson =>
          rw [canonical_array_iff, forall₂_written_iff leftFull rightFull, sameJson_array_iff]
          refine forall₂_congr_of_mem fun x inLeft y inRight => option_rel_congr ?_
          rintro item other rfl rfl
          exact ih item inLeft (leftJson item inLeft) (rightJson other inRight)
    | object fields => exact iff_of_false (ofSlots_ne_object _ _) (by rintro ⟨⟩)
  | object fields ih =>
    cases b with
    | primitive q => exact iff_of_false (Ne.symm (q.canonical_ne_object _)) (by rintro ⟨⟩)
    | date => cases right
    | array others => exact iff_of_false (Ne.symm (ofSlots_ne_object _ _)) (by rintro ⟨⟩)
    | object others =>
      cases left with
      | object leftDistinct leftJson =>
        cases right with
        | object rightDistinct rightJson =>
          rw [canonical_object_iff leftDistinct rightDistinct, sameJson_object_iff]
          refine and_congr_right fun _ => forall₃_congr fun key x y => ?_
          refine forall₂_congr fun inLeft inRight => ?_
          exact ih (key, x) inLeft (leftJson _ inLeft) (rightJson _ inRight)

/-- An approval that is approved and has not expired is decided by its scope alone. -/
theorem approvalStillValid_of_live (lexis : JsonLexis) {approval : ApprovalRecordView}
    (approved : approval.decision = .approved) {now : JsDate}
    (unexpired : (approval.expiresAt.any fun expiresAt => expiresAt.le now) = false)
    (currentScope : ScopeValue) :
    approvalStillValid lexis approval currentScope now =
      scopesEqual lexis approval.exactScope currentScope := by
  simp [approvalStillValid, approved, unexpired]

/-- On JSON the comparison of scopes is structural equality up to the order of keys: the serialised
forms are equal just for such scopes, and a live approval is valid just for them. -/
theorem scopesEqual_exact (lexis : JsonLexis) {a b : ScopeValue} (left : a.IsJson)
    (right : b.IsJson) :
    (∃ equal, scopesEqual lexis a b = .ok equal ∧ (equal = true ↔ SameJson a b)) ∧
    (∃ text other, stableStringify lexis a = .ok text ∧ stableStringify lexis b = .ok other ∧
      (text = other ↔ SameJson a b)) ∧
    ∀ (approval : ApprovalRecordView) (now : JsDate), approval.exactScope = a →
      approval.decision = .approved →
      (approval.expiresAt.any fun expiresAt => expiresAt.le now) = false →
      ∃ valid, approvalStillValid lexis approval b now = .ok valid ∧
        (valid = true ↔ SameJson a b) := by
  obtain ⟨equal, compared, isEqual⟩ := scopesEqual_canonical lexis left.noBigInt right.noBigInt
  rw [canonical_eq_iff left right] at isEqual
  refine ⟨⟨equal, compared, isEqual⟩, ?_, ?_⟩
  · refine ⟨_, _, stableStringify_canonical lexis left.noBigInt,
      stableStringify_canonical lexis right.noBigInt, ?_⟩
    rw [canonicalText_inj, canonical_eq_iff left right]
  · rintro approval now rfl approved unexpired
    exact ⟨equal, (approvalStillValid_of_live lexis approved unexpired b).trans compared, isEqual⟩

/-- A key or a string of ASCII characters, as code units. -/
def asciiString (s : String) : JsString := s.toList.map fun c => Fin.ofNat 0x10000 c.toNat

/-- A payment with its fields in one order. -/
def paymentScope : ScopeValue := .object [
  (asciiString "amount", .primitive (.number (.finite 100))),
  (asciiString "to", .array [some (.primitive (.string (asciiString "acme")))])]

def paymentScopeReordered : ScopeValue := .object [
  (asciiString "to", .array [some (.primitive (.string (asciiString "acme")))]),
  (asciiString "amount", .primitive (.number (.finite 100)))]

theorem paymentScope_isJson : paymentScope.IsJson := by
  refine .object (by decide) ?_
  simp [ScopeValue.IsJson.number, ScopeValue.IsJson.array, ScopeValue.IsJson.string]

theorem paymentScopeReordered_isJson : paymentScopeReordered.IsJson := by
  refine .object (by decide) ?_
  simp [ScopeValue.IsJson.number, ScopeValue.IsJson.array, ScopeValue.IsJson.string]

/-- An approval of a payment is decided for the same payment with its fields in another order. -/
theorem scopesEqual_exact_payment :
    ∃ valid, approvalStillValid .plain
      { decision := .approved, exactScope := paymentScope, expiresAt := some ⟨some 2000⟩ }
      paymentScopeReordered ⟨some 1000⟩ = .ok valid ∧
      (valid = true ↔ SameJson paymentScope paymentScopeReordered) :=
  (scopesEqual_exact .plain paymentScope_isJson paymentScopeReordered_isJson).2.2 _ _ rfl rfl
    (by decide)

end Donna
