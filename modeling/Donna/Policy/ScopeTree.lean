import Donna.Policy.Scope

/-! The JSON tree of a scope.  The serialisation throws just where a bigint occurs, and otherwise it
writes the text of the scope's `canonical` tree, in which the keys are sorted and what JSON cannot
say is `null` or an empty object. -/

namespace Donna

open Js

namespace ScopeValue

/-- Induction on a scope, with the motive at every item and at every field's value. -/
@[elab_as_elim]
theorem induction {motive : ScopeValue → Prop} (primitive : ∀ value, motive (.primitive value))
    (date : ∀ date, motive (.date date))
    (array : ∀ items, (∀ item, some item ∈ items → motive item) → motive (.array items))
    (object : ∀ fields, (∀ field ∈ fields, motive field.2) → motive (.object fields))
    (value : ScopeValue) : motive value :=
  @ScopeValue.rec motive (fun items => ∀ item, some item ∈ items → motive item)
    (fun fields => ∀ field ∈ fields, motive field.2)
    (fun slot => ∀ item, some item = slot → motive item) (fun field => motive field.2)
    primitive date array object
    (fun _ present => absurd present List.not_mem_nil)
    (fun _ _ first rest item present => (List.mem_cons.mp present).elim (first item) (rest item))
    (List.forall_mem_nil _) (fun _ _ first rest => List.forall_mem_cons.mpr ⟨first, rest⟩)
    (fun _ filled => absurd filled (Option.some_ne_none _))
    (fun _ value _ same => Option.some.inj same ▸ value)
    (fun _ _ value => value) value

/-- A bigint occurs in the value. -/
inductive HoldsBigInt : ScopeValue → Prop
  | here (z : ℤ) : HoldsBigInt (.primitive (.bigint z))
  | item {items : List (Option ScopeValue)} {item : ScopeValue} (present : some item ∈ items)
      (holds : HoldsBigInt item) : HoldsBigInt (.array items)
  | field {fields : List (JsString × ScopeValue)} {field : JsString × ScopeValue}
      (present : field ∈ fields) (holds : HoldsBigInt field.2) : HoldsBigInt (.object fields)

end ScopeValue

def Primitive.canonical : Primitive → Json JsString ℚ
  | .boolean b => .boolean b
  | .number (.finite q) => .number q
  | .string s => .string s
  | _ => .null

namespace ScopeValue

mutual

/-- The tree that a scope is written as. -/
def canonical : ScopeValue → Json JsString ℚ
  | .primitive value => value.canonical
  | .date _ => .object []
  | .array items => Json.ofSlots (canonicalItems items)
  | .object fields => .object ((canonicalFields fields).insertionSort byKey)

def canonicalItems : List (Option ScopeValue) → List (Option (Json JsString ℚ))
  | [] => []
  | none :: rest => none :: canonicalItems rest
  | some item :: rest => some (canonical item) :: canonicalItems rest

def canonicalFields : List (JsString × ScopeValue) → List (JsString × Json JsString ℚ)
  | [] => []
  | (key, value) :: rest => (key, canonical value) :: canonicalFields rest

end

theorem canonicalItems_eq (items : List (Option ScopeValue)) :
    canonicalItems items = items.map (Option.map canonical) := by
  induction items with
  | nil => rfl
  | cons slot rest ih => cases slot <;> simp [canonicalItems, ih]

theorem canonicalFields_eq (fields : List (JsString × ScopeValue)) :
    canonicalFields fields = fields.map fun field => (field.1, field.2.canonical) := by
  induction fields with
  | nil => rfl
  | cons field rest ih => rw [canonicalFields, ih, List.map_cons]

end ScopeValue

/-! ### What the serialisation writes -/

/-- Sorting by key does not look at the values. -/
theorem insertionSort_mapValues {α β : Type} (f : α → β) (entries : List (JsString × α)) :
    (entries.map fun entry => (entry.1, f entry.2)).insertionSort byKey =
      (entries.insertionSort byKey).map fun entry => (entry.1, f entry.2) :=
  (List.map_insertionSort byKey byKey (fun entry => (entry.1, f entry.2)) entries
    fun _ _ _ _ => Iff.rfl).symm

section Text

variable (lexis : JsonLexis)

/-- The text of a scope's tree. -/
def canonicalText (value : ScopeValue) : String := String.ofList (value.canonical.text lexis)

theorem stableStringify_primitive {value : Primitive}
    (h : ¬ (ScopeValue.primitive value).HoldsBigInt) :
    stableStringify lexis (.primitive value) = .ok (canonicalText lexis (.primitive value)) := by
  cases value with
  | undefined | null | symbol => rfl
  | boolean b => cases b <;> rfl
  | number n =>
    cases n with
    | finite q => simp [stableStringify, jsonStringify, canonicalText, ScopeValue.canonical,
        Primitive.canonical, Json.text]
    | infinity | nan => rfl
  | string s =>
    simp [stableStringify, jsonStringify, canonicalText, ScopeValue.canonical,
      Primitive.canonical, Json.text]
  | bigint z => exact absurd (.here z) h

/-- The text at an index of an array, which is empty at a hole. -/
def slotText (slot : Option ScopeValue) : String := slot.elim "" (canonicalText lexis)

theorem slotText_toList (slot : Option ScopeValue) :
    (slotText lexis slot).toList = Json.slotText lexis (slot.map ScopeValue.canonical) := by
  cases slot <;> simp [slotText, canonicalText, Json.slotText]

theorem stringifyItems_canonical {items : List (Option ScopeValue)}
    (texts : ∀ item, some item ∈ items →
      stableStringify lexis item = .ok (canonicalText lexis item)) :
    stringifyItems lexis items = .ok (items.map (slotText lexis)) := by
  induction items with
  | nil => rfl
  | cons slot rest ih =>
    have later := ih fun item present => texts item (List.mem_cons_of_mem _ present)
    cases slot with
    | none => simp [stringifyItems, later, slotText]
    | some item => simp [stringifyItems, texts item List.mem_cons_self, later, slotText]

theorem stringifyFields_canonical {fields : List (JsString × ScopeValue)}
    (texts : ∀ field ∈ fields, stableStringify lexis field.2 = .ok (canonicalText lexis field.2)) :
    stringifyFields lexis fields =
      .ok (fields.map fun field => (field.1, canonicalText lexis field.2)) := by
  induction fields with
  | nil => rfl
  | cons field rest ih =>
    obtain ⟨first, later⟩ := List.forall_mem_cons.mp texts
    simp [stringifyFields, first, ih later]

/-- Without a bigint the serialisation writes the canonical tree. -/
theorem stableStringify_canonical {value : ScopeValue} (h : ¬ value.HoldsBigInt) :
    stableStringify lexis value = .ok (canonicalText lexis value) := by
  induction value using ScopeValue.induction with
  | primitive value => exact stableStringify_primitive lexis h
  | date date => rfl
  | array items ih =>
    have texts := stringifyItems_canonical lexis fun item present =>
      ih item present fun holds => h (.item present holds)
    rw [stableStringify, texts]
    simp only [ok_bind, pure_except, Except.ok.injEq, ← String.toList_inj]
    simp [canonicalText, ScopeValue.canonical, ScopeValue.canonicalItems_eq, Json.text_ofSlots,
      slotText_toList, Function.comp_def]
  | object fields ih =>
    have texts := stringifyFields_canonical lexis fun field present =>
      ih field present fun holds => h (.field present holds)
    rw [stableStringify, texts]
    simp only [ok_bind, pure_except, Except.ok.injEq, ← String.toList_inj,
      insertionSort_mapValues]
    simp [canonicalText, ScopeValue.canonical, ScopeValue.canonicalFields_eq, Json.text,
      Json.memberTexts_eq, insertionSort_mapValues, Function.comp_def]
    rfl

/-- A bigint anywhere makes the serialisation throw. -/
theorem stableStringify_bigint {value : ScopeValue} (h : value.HoldsBigInt) :
    stableStringify lexis value = .error .bigint := by
  induction h with
  | here z => rfl
  | @item items item present _ ih =>
    have throws : stringifyItems lexis items = .error .bigint := by
      induction items with
      | nil => cases present
      | cons slot rest ihRest =>
        cases slot with
        | none =>
          have later : some item ∈ rest := by simpa using present
          simp [stringifyItems, ihRest later]
        | some first =>
          cases hFirst : stableStringify lexis first with
          | error error => simp [stringifyItems, hFirst]
          | ok text =>
            rcases List.mem_cons.mp present with same | later
            · simp [← Option.some.inj same, ih] at hFirst
            · simp [stringifyItems, hFirst, ihRest later]
    rw [stableStringify, throws]
    rfl
  | @field fields field present _ ih =>
    have throws : stringifyFields lexis fields = .error .bigint := by
      induction fields with
      | nil => cases present
      | cons first rest ihRest =>
        cases hFirst : stableStringify lexis first.2 with
        | error error => simp [stringifyFields, hFirst]
        | ok text =>
          rcases List.mem_cons.mp present with rfl | later
          · simp [ih] at hFirst
          · simp [stringifyFields, hFirst, ihRest later]
    rw [stableStringify, throws]
    rfl

theorem canonicalText_inj {a b : ScopeValue} :
    canonicalText lexis a = canonicalText lexis b ↔ a.canonical = b.canonical := by
  constructor
  · intro same
    exact Json.text_injective lexis (String.ofList_injective same)
  · intro same
    rw [canonicalText, same, canonicalText]

/-- Scopes compare equal just when they have one tree. -/
theorem scopesEqual_canonical {a b : ScopeValue} (left : ¬ a.HoldsBigInt)
    (right : ¬ b.HoldsBigInt) :
    ∃ equal, scopesEqual lexis a b = .ok equal ∧ (equal = true ↔ a.canonical = b.canonical) := by
  refine ⟨canonicalText lexis a == canonicalText lexis b, ?_, ?_⟩
  · simp [scopesEqual, stableStringify_canonical lexis left, stableStringify_canonical lexis right]
  · rw [beq_iff_eq, canonicalText_inj]

theorem scopesEqual_bigint {a b : ScopeValue} (h : a.HoldsBigInt ∨ b.HoldsBigInt) :
    scopesEqual lexis a b = .error .bigint := by
  by_cases left : a.HoldsBigInt
  · simp [scopesEqual, stableStringify_bigint lexis left]
  · have right := h.resolve_left left
    simp [scopesEqual, stableStringify_canonical lexis left, stableStringify_bigint lexis right]

end Text

/-! ### Sorted fields -/

theorem byKey_total {α : Type} (a b : JsString × α) : byKey a b ∨ byKey b a := le_total a.1 b.1

instance {α : Type} : Std.Total (byKey (α := α)) := ⟨byKey_total⟩

instance {α : Type} : IsTrans (JsString × α) byKey := ⟨fun _ _ _ => le_trans (α := JsString)⟩

/-- Where no key occurs twice, fields sort to one list just when they are a rearrangement. -/
theorem insertionSort_byKey_inj {α : Type} {left right : List (JsString × α)}
    (distinct : (left.map Prod.fst).Nodup) :
    left.insertionSort byKey = right.insertionSort byKey ↔ left.Perm right := by
  have leftPerm := List.perm_insertionSort byKey left
  have rightPerm := List.perm_insertionSort byKey right
  constructor
  · intro same
    exact leftPerm.symm.trans (same ▸ rightPerm)
  · intro order
    refine List.Perm.eq_of_pairwise ?_ (List.pairwise_insertionSort byKey left)
      (List.pairwise_insertionSort byKey right) ((leftPerm.trans order).trans rightPerm.symm)
    intro a b inLeft inRight less more
    have key : a.1 = b.1 := le_antisymm less more
    exact List.inj_on_of_nodup_map distinct ((List.mem_insertionSort byKey).mp inLeft)
      (order.mem_iff.mpr ((List.mem_insertionSort byKey).mp inRight)) key

theorem fst_mapValues {α β : Type} (f : α → β) (entries : List (JsString × α)) :
    (entries.map fun entry => (entry.1, f entry.2)).map Prod.fst = entries.map Prod.fst := by
  simp

/-- A key that occurs once has one value. -/
theorem value_unique {α : Type} {entries : List (JsString × α)}
    (distinct : (entries.map Prod.fst).Nodup) {key : JsString} {x y : α}
    (first : (key, x) ∈ entries) (second : (key, y) ∈ entries) : x = y :=
  congrArg Prod.snd (List.inj_on_of_nodup_map distinct first second rfl)

/-- Fields whose values are mapped are a rearrangement just when the keys are and equal keys have
values with one image. -/
theorem perm_mapValues_iff {α β : Type} (f : α → β) {left right : List (JsString × α)}
    (leftDistinct : (left.map Prod.fst).Nodup) (rightDistinct : (right.map Prod.fst).Nodup) :
    (left.map fun entry => (entry.1, f entry.2)).Perm
        (right.map fun entry => (entry.1, f entry.2)) ↔
      (left.map Prod.fst).Perm (right.map Prod.fst) ∧
        ∀ key x y, (key, x) ∈ left → (key, y) ∈ right → f x = f y := by
  constructor
  · intro order
    have keys := order.map Prod.fst
    rw [fst_mapValues, fst_mapValues] at keys
    refine ⟨keys, fun key x y inLeft inRight => ?_⟩
    have image : (key, f x) ∈ right.map fun entry => (entry.1, f entry.2) :=
      order.mem_iff.mp (List.mem_map.mpr ⟨_, inLeft, rfl⟩)
    obtain ⟨⟨key', y'⟩, inRight', same⟩ := List.mem_map.mp image
    obtain ⟨rfl, hValue⟩ := Prod.mk.inj same
    rw [← hValue, value_unique rightDistinct inRight' inRight]
  · rintro ⟨keys, values⟩
    have nodup : ∀ {entries : List (JsString × α)}, (entries.map Prod.fst).Nodup →
        (entries.map fun entry => (entry.1, f entry.2)).Nodup := by
      intro entries distinct
      exact List.Nodup.of_map Prod.fst (by rwa [fst_mapValues])
    rw [List.perm_ext_iff_of_nodup (nodup leftDistinct) (nodup rightDistinct)]
    intro member
    simp only [List.mem_map]
    constructor
    · rintro ⟨⟨key, x⟩, inLeft, rfl⟩
      obtain ⟨⟨_, y⟩, inRight, rfl⟩ := List.mem_map.mp
        (keys.mem_iff.mp (List.mem_map.mpr ⟨_, inLeft, rfl⟩))
      exact ⟨_, inRight, by rw [values _ x y inLeft inRight]⟩
    · rintro ⟨⟨key, y⟩, inRight, rfl⟩
      obtain ⟨⟨_, x⟩, inLeft, rfl⟩ := List.mem_map.mp
        (keys.mem_iff.mpr (List.mem_map.mpr ⟨_, inRight, rfl⟩))
      exact ⟨_, inLeft, by rw [values _ x y inLeft inRight]⟩

/-- Objects have one tree just when their keys are a rearrangement and equal keys have one tree. -/
theorem canonical_object_iff {left right : List (JsString × ScopeValue)}
    (leftDistinct : (left.map Prod.fst).Nodup) (rightDistinct : (right.map Prod.fst).Nodup) :
    (ScopeValue.object left).canonical = (ScopeValue.object right).canonical ↔
      (left.map Prod.fst).Perm (right.map Prod.fst) ∧
        ∀ key x y, (key, x) ∈ left → (key, y) ∈ right → x.canonical = y.canonical := by
  rw [ScopeValue.canonical, ScopeValue.canonical, Json.object.injEq, ScopeValue.canonicalFields_eq,
    ScopeValue.canonicalFields_eq, insertionSort_byKey_inj (by rwa [fst_mapValues]),
    perm_mapValues_iff _ leftDistinct rightDistinct]

theorem option_map_eq_iff {α β : Type} {f : α → β} {x y : Option α} :
    x.map f = y.map f ↔ Option.Rel (fun a b => f a = f b) x y := by
  cases x <;> cases y <;> simp

/-- Arrays have one tree just when they are written with as many slots, and in each pair of slots
there is no item or two items with one tree. -/
theorem canonical_array_iff {left right : List (Option ScopeValue)} :
    (ScopeValue.array left).canonical = (ScopeValue.array right).canonical ↔
      List.Forall₂ (Option.Rel fun x y => x.canonical = y.canonical) (Json.written left)
        (Json.written right) := by
  rw [ScopeValue.canonical, ScopeValue.canonical, Json.ofSlots_inj, ScopeValue.canonicalItems_eq,
    ScopeValue.canonicalItems_eq, Json.written_map, Json.written_map, ← List.forall₂_eq_eq_eq,
    List.forall₂_map_left_iff, List.forall₂_map_right_iff]
  simp only [option_map_eq_iff]

theorem Primitive.canonical_ne_array (p : Primitive) (slots : List (Option (Json JsString ℚ))) :
    p.canonical ≠ Json.ofSlots slots := by
  rcases p with _ | _ | _ | ⟨_ | _ | _⟩ | _ | _ | _ <;> cases slots <;>
    simp [Primitive.canonical, Json.ofSlots]

theorem ofSlots_ne_object (slots : List (Option (Json JsString ℚ)))
    (members : List (JsString × Json JsString ℚ)) : Json.ofSlots slots ≠ .object members := by
  cases slots <;> simp [Json.ofSlots]

theorem Primitive.canonical_ne_object (p : Primitive)
    (members : List (JsString × Json JsString ℚ)) : p.canonical ≠ .object members := by
  rcases p with _ | _ | _ | ⟨_ | _ | _⟩ | _ | _ | _ <;> simp [Primitive.canonical]

end Donna
