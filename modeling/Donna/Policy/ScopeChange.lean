import Donna.Policy.Lexis
import Donna.Policy.ScopeEquality
import Mathlib.Data.Finset.Basic
import Mathlib.Data.Finset.Dedup

/-! Scope changes that the comparison misses.  Values that JSON cannot say are written as `null`,
a date as an empty object, and an array of one hole as an empty array, so two scopes that differ
only in these compare equal.  A change is
detected just where some two corresponding positions of the scopes differ in their `Face`, which is
what the text shows of a value apart from its parts. -/

namespace Donna

open Js

namespace ScopeValue

/-- Objects have no key twice. -/
inductive WellFormed : ScopeValue → Prop
  | primitive (value : Primitive) : WellFormed (.primitive value)
  | date (date : JsDate) : WellFormed (.date date)
  | array {items : List (Option ScopeValue)} (inner : ∀ item, some item ∈ items → WellFormed item) :
      WellFormed (.array items)
  | object {fields : List (JsString × ScopeValue)} (distinct : (fields.map Prod.fst).Nodup)
      (inner : ∀ field ∈ fields, WellFormed field.2) : WellFormed (.object fields)

theorem WellFormed.items {items : List (Option ScopeValue)} (h : WellFormed (.array items)) :
    ∀ item, some item ∈ items → WellFormed item := by
  cases h with
  | array inner => exact inner

theorem WellFormed.distinct {fields : List (JsString × ScopeValue)}
    (h : WellFormed (.object fields)) : (fields.map Prod.fst).Nodup := by
  cases h with
  | object distinct _ => exact distinct

theorem WellFormed.fields {fields : List (JsString × ScopeValue)}
    (h : WellFormed (.object fields)) : ∀ field ∈ fields, WellFormed field.2 := by
  cases h with
  | object _ inner => exact inner

/-- `items[i]`, which is `undefined` at a hole. -/
def itemAt (items : List (Option ScopeValue)) (i : ℕ) : ScopeValue :=
  items[i]?.join.getD (.primitive .undefined)

/-- `fields[key]`, which is `undefined` where the key is absent. -/
def fieldAt (fields : List (JsString × ScopeValue)) (key : JsString) : ScopeValue :=
  (fields.lookup key).getD (.primitive .undefined)

end ScopeValue

/-- The two values denote one scope: equal primitives and dates, arrays of one length item by item,
and objects key by key, where a key that is `undefined` counts as absent. -/
inductive SameScope : ScopeValue → ScopeValue → Prop
  | primitive (value : Primitive) : SameScope (.primitive value) (.primitive value)
  | date (date : JsDate) : SameScope (.date date) (.date date)
  | array {left right : List (Option ScopeValue)} (length : left.length = right.length)
      (items : ∀ i, SameScope (ScopeValue.itemAt left i) (ScopeValue.itemAt right i)) :
      SameScope (.array left) (.array right)
  | object {left right : List (JsString × ScopeValue)}
      (fields : ∀ key, SameScope (ScopeValue.fieldAt left key) (ScopeValue.fieldAt right key)) :
      SameScope (.object left) (.object right)

/-! ### Corresponding positions -/

/-- `u` and `v` stand at one path in the two values. -/
inductive Facing : ScopeValue → ScopeValue → ScopeValue → ScopeValue → Prop
  | here (a b : ScopeValue) : Facing a b a b
  | item {left right : List (Option ScopeValue)} {x y u v : ScopeValue} (i : ℕ)
      (inLeft : left[i]? = some (some x)) (inRight : right[i]? = some (some y))
      (inner : Facing x y u v) :
      Facing (.array left) (.array right) u v
  | field {left right : List (JsString × ScopeValue)} {x y u v : ScopeValue} (key : JsString)
      (inLeft : (key, x) ∈ left) (inRight : (key, y) ∈ right) (inner : Facing x y u v) :
      Facing (.object left) (.object right) u v

/-- What the text of a value shows apart from its parts.  Of an array it shows the slots between the
commas, which are filled or empty. -/
inductive Face
  | null
  | boolean (b : Bool)
  | number (q : ℚ)
  | string (s : JsString)
  | array (filled : List Bool)
  | object (keys : Finset JsString)
  deriving DecidableEq

def Primitive.face : Primitive → Face
  | .boolean b => .boolean b
  | .number (.finite q) => .number q
  | .string s => .string s
  | _ => .null

def ScopeValue.face : ScopeValue → Face
  | .primitive value => value.face
  | .date _ => .object ∅
  | .array items => .array ((Json.written items).map Option.isSome)
  | .object fields => .object (fields.map Prod.fst).toFinset

/-- Values that differ and have one text. -/
inductive Mistaken : ScopeValue → ScopeValue → Prop
  | primitives {p q : Primitive} (left : p.face = .null) (right : q.face = .null)
      (differ : p ≠ q) : Mistaken (.primitive p) (.primitive q)
  | dates {d e : JsDate} (differ : d ≠ e) : Mistaken (.date d) (.date e)
  | dateObject (d : JsDate) : Mistaken (.date d) (.object [])
  | objectDate (d : JsDate) : Mistaken (.object []) (.date d)
  | emptyHole : Mistaken (.array []) (.array [none])
  | holeEmpty : Mistaken (.array [none]) (.array [])

/-! ### Faces -/

theorem Primitive.face_eq_iff {p q : Primitive} : p.face = q.face ↔ p.canonical = q.canonical := by
  rcases p with _ | _ | _ | ⟨_ | _ | _⟩ | _ | _ | _ <;>
    rcases q with _ | _ | _ | ⟨_ | _ | _⟩ | _ | _ | _ <;> simp [face, canonical]

/-- Only values that are written as `null` share a face with another primitive. -/
theorem Primitive.eq_of_face {p q : Primitive} (same : p.face = q.face) (shown : p.face ≠ .null) :
    p = q := by
  rcases p with _ | _ | _ | ⟨_ | _ | _⟩ | _ | _ | _ <;>
    rcases q with _ | _ | _ | ⟨_ | _ | _⟩ | _ | _ | _ <;> simp_all [face]

/-- The face of a value with the tree. -/
def treeFace : Json JsString ℚ → Face
  | .null => .null
  | .boolean b => .boolean b
  | .number q => .number q
  | .string s => .string s
  | .array first rest => .array ((first :: rest).map Option.isSome)
  | .object members => .object (members.map Prod.fst).toFinset

theorem treeFace_ofSlots (slots : List (Option (Json JsString ℚ))) :
    treeFace (Json.ofSlots slots) = .array ((Json.written slots).map Option.isSome) := by
  cases slots <;> rfl

theorem face_eq_treeFace (value : ScopeValue) : value.face = treeFace value.canonical := by
  cases value with
  | primitive p => rcases p with _ | _ | _ | ⟨_ | _ | _⟩ | _ | _ | _ <;> rfl
  | date => rfl
  | array items =>
    rw [ScopeValue.face, ScopeValue.canonical, ScopeValue.canonicalItems_eq, treeFace_ofSlots,
      Json.written_map, List.map_map]
    simp [Function.comp_def]
  | object fields =>
    have keys := (List.perm_insertionSort byKey (ScopeValue.canonicalFields fields)).map Prod.fst
    rw [ScopeValue.canonicalFields_eq, fst_mapValues] at keys
    rw [ScopeValue.face, ScopeValue.canonical, treeFace, ScopeValue.canonicalFields_eq,
      List.toFinset_eq_of_perm _ _ keys]

/-- Values with one tree have one face. -/
theorem face_of_canonical {a b : ScopeValue} (same : a.canonical = b.canonical) :
    a.face = b.face := by
  rw [face_eq_treeFace, face_eq_treeFace, same]

theorem fields_eq_nil_of_face {fields : List (JsString × ScopeValue)}
    (empty : (ScopeValue.object fields).face = .object ∅) : fields = [] := by
  simpa [ScopeValue.face] using empty

/-! ### What holds at corresponding positions -/

section Positions

variable {a b u v : ScopeValue}

/-- Lists that are related slot by slot are related at the slots where both have an item. -/
theorem forall₂_item {α β : Type} {R : α → β → Prop} {left : List (Option α)}
    {right : List (Option β)} (related : List.Forall₂ (Option.Rel R) left right) {i : ℕ} {x : α}
    {y : β} (inLeft : left[i]? = some (some x)) (inRight : right[i]? = some (some y)) : R x y := by
  obtain ⟨hLeft, left⟩ := List.getElem?_eq_some_iff.mp inLeft
  obtain ⟨hRight, right⟩ := List.getElem?_eq_some_iff.mp inRight
  have slots := (List.forall₂_iff_get.mp related).2 i hLeft hRight
  rw [List.get_eq_getElem, List.get_eq_getElem, left, right] at slots
  simpa using slots

/-- An array with an item is written with its own slots. -/
theorem written_of_item {items : List (Option ScopeValue)} {i : ℕ} {x : ScopeValue}
    (present : items[i]? = some (some x)) : Json.written items = items := by
  cases items with
  | nil => cases present
  | cons first rest => rfl

theorem itemAt_of_item {items : List (Option ScopeValue)} {i : ℕ} {x : ScopeValue}
    (present : items[i]? = some (some x)) : ScopeValue.itemAt items i = x := by
  rw [ScopeValue.itemAt, present, Option.join_some, Option.getD_some]

/-- Values with one tree have one tree at every position. -/
theorem Facing.canonical (facing : Facing a b u v) (left : a.WellFormed) (right : b.WellFormed)
    (same : a.canonical = b.canonical) : u.canonical = v.canonical := by
  induction facing with
  | here => exact same
  | item i inLeft inRight _ ih =>
    refine ih (left.items _ (List.mem_of_getElem? inLeft))
      (right.items _ (List.mem_of_getElem? inRight)) ?_
    have slots := canonical_array_iff.mp same
    rw [written_of_item inLeft, written_of_item inRight] at slots
    exact forall₂_item slots inLeft inRight
  | field key inLeft inRight _ ih =>
    refine ih (left.fields _ inLeft) (right.fields _ inRight) ?_
    exact ((canonical_object_iff left.distinct right.distinct).mp same).2 key _ _ inLeft inRight

theorem fieldAt_of_mem {fields : List (JsString × ScopeValue)}
    (distinct : (fields.map Prod.fst).Nodup) {key : JsString} {x : ScopeValue}
    (present : (key, x) ∈ fields) :
    ScopeValue.fieldAt fields key = x := by
  obtain ⟨before, after, rfl⟩ := List.append_of_mem present
  have found : (before ++ (key, x) :: after).lookup key = some x := by
    refine List.lookup_eq_some_iff.mpr ⟨before, after, rfl, fun field earlier => ?_⟩
    rw [List.map_append, List.map_cons, List.nodup_append] at distinct
    exact bne_iff_ne.mpr (distinct.2.2 _ (List.mem_map_of_mem earlier) _ List.mem_cons_self).symm
  rw [ScopeValue.fieldAt, found, Option.getD_some]

/-- Values that denote one scope do at every position. -/
theorem Facing.sameScope (facing : Facing a b u v) (left : a.WellFormed) (right : b.WellFormed)
    (same : SameScope a b) : SameScope u v := by
  induction facing with
  | here => exact same
  | item i inLeft inRight _ ih =>
    refine ih (left.items _ (List.mem_of_getElem? inLeft))
      (right.items _ (List.mem_of_getElem? inRight)) ?_
    cases same with
    | array _ items =>
      have value := items i
      rwa [itemAt_of_item inLeft, itemAt_of_item inRight] at value
  | field key inLeft inRight _ ih =>
    refine ih (left.fields _ inLeft) (right.fields _ inRight) ?_
    cases same with
    | object fields =>
      have value := fields key
      rwa [fieldAt_of_mem left.distinct inLeft, fieldAt_of_mem right.distinct inRight] at value

theorem Mistaken.not_sameScope (mistaken : Mistaken u v) : ¬ SameScope u v := by
  intro same
  cases mistaken with
  | primitives left right differ =>
    cases same
    exact differ rfl
  | dates differ =>
    cases same
    exact differ rfl
  | dateObject => cases same
  | objectDate => cases same
  | emptyHole | holeEmpty =>
    cases same with
    | array length => simp at length

/-! ### Faces that agree everywhere -/

/-- The pairs of values with one face. -/
inductive SameFace : ScopeValue → ScopeValue → Prop
  | primitives {p q : Primitive} (same : p.face = q.face) :
      SameFace (.primitive p) (.primitive q)
  | dates (d e : JsDate) : SameFace (.date d) (.date e)
  | dateObject (d : JsDate) : SameFace (.date d) (.object [])
  | objectDate (d : JsDate) : SameFace (.object []) (.date d)
  | arrays {left right : List (Option ScopeValue)}
      (shape : (Json.written left).map Option.isSome = (Json.written right).map Option.isSome) :
      SameFace (.array left) (.array right)
  | objects {left right : List (JsString × ScopeValue)}
      (keys : (left.map Prod.fst).toFinset = (right.map Prod.fst).toFinset) :
      SameFace (.object left) (.object right)

theorem Primitive.face_leaf (p : Primitive) :
    (∀ filled, p.face ≠ .array filled) ∧ ∀ keys, p.face ≠ .object keys := by
  rcases p with _ | _ | _ | ⟨_ | _ | _⟩ | _ | _ | _ <;> simp [face]

theorem sameFace_of_eq (same : a.face = b.face) : SameFace a b := by
  cases a with
  | primitive p =>
    cases b with
    | primitive q => exact .primitives same
    | date | object => exact absurd same (p.face_leaf.2 _)
    | array => exact absurd same (p.face_leaf.1 _)
  | date d =>
    cases b with
    | primitive q => exact absurd same.symm (q.face_leaf.2 _)
    | date e => exact .dates d e
    | array => cases same
    | object fields =>
      obtain rfl := fields_eq_nil_of_face same.symm
      exact .dateObject d
  | array left =>
    cases b with
    | primitive q => exact absurd same.symm (q.face_leaf.1 _)
    | date | object => cases same
    | array right => exact .arrays (by simpa [ScopeValue.face] using same)
  | object left =>
    cases b with
    | primitive q => exact absurd same.symm (q.face_leaf.2 _)
    | date d =>
      obtain rfl := fields_eq_nil_of_face same
      exact .objectDate d
    | array => cases same
    | object right => exact .objects (by simpa [ScopeValue.face] using same)

/-- Lists with items at the same slots are related where their items are. -/
theorem forall₂_of_shape {α β : Type} {R : α → β → Prop} {left : List (Option α)}
    {right : List (Option β)} (shape : left.map Option.isSome = right.map Option.isSome)
    (items : ∀ (i : ℕ) x y, left[i]? = some (some x) → right[i]? = some (some y) → R x y) :
    List.Forall₂ (Option.Rel R) left right := by
  induction left generalizing right with
  | nil =>
    obtain rfl := List.map_eq_nil_iff.mp shape.symm
    exact .nil
  | cons x left ih =>
    cases right with
    | nil => cases shape
    | cons y right =>
      obtain ⟨first, rest⟩ := List.cons.inj shape
      refine .cons ?_ (ih rest fun i u v inLeft inRight => items (i + 1) u v inLeft inRight)
      have atFirst := items 0
      cases x <;> cases y <;> simp_all

theorem item_of_written {items : List (Option ScopeValue)} {i : ℕ} {x : ScopeValue}
    (present : (Json.written items)[i]? = some (some x)) : items[i]? = some (some x) := by
  cases items with
  | nil => simp [Json.written, List.getElem?_singleton] at present
  | cons first rest => exact present

/-- Arrays that are written with one shape have it, unless one is empty and the other a hole. -/
theorem shape_of_written {left right : List (Option ScopeValue)}
    (shape : (Json.written left).map Option.isSome = (Json.written right).map Option.isSome)
    (sound : ¬ Mistaken (.array left) (.array right)) :
    left.map Option.isSome = right.map Option.isSome := by
  cases left with
  | nil =>
    cases right with
    | nil => rfl
    | cons y right =>
      obtain ⟨rfl, rfl⟩ : y = none ∧ right = [] := by simpa [Json.written] using shape.symm
      exact absurd .emptyHole sound
  | cons x left =>
    cases right with
    | nil =>
      obtain ⟨rfl, rfl⟩ : x = none ∧ left = [] := by simpa [Json.written] using shape
      exact absurd .holeEmpty sound
    | cons y right => exact shape

/-- Values with equal faces at all positions have one tree. -/
theorem canonical_of_faces (left : a.WellFormed) (right : b.WellFormed)
    (faces : ∀ u v, Facing a b u v → u.face = v.face) : a.canonical = b.canonical := by
  induction a using ScopeValue.induction generalizing b with
  | primitive p =>
    cases sameFace_of_eq (faces _ _ (.here _ _)) with
    | primitives same => exact Primitive.face_eq_iff.mp same
  | date d => cases sameFace_of_eq (faces _ _ (.here _ _)) <;> rfl
  | array items ih =>
    cases sameFace_of_eq (faces _ _ (.here _ _)) with
    | arrays shape =>
      refine canonical_array_iff.mpr (forall₂_of_shape shape ?_)
      intro i x y writtenLeft writtenRight
      have inLeft := item_of_written writtenLeft
      have inRight := item_of_written writtenRight
      have memLeft := List.mem_of_getElem? inLeft
      refine ih x memLeft (left.items x memLeft) (right.items y (List.mem_of_getElem? inRight)) ?_
      exact fun u v inner => faces u v (.item i inLeft inRight inner)
  | object fields ih =>
    cases sameFace_of_eq (faces _ _ (.here _ _)) with
    | objectDate d => rfl
    | objects keys =>
      rw [canonical_object_iff left.distinct right.distinct]
      refine ⟨List.perm_of_nodup_nodup_toFinset_eq left.distinct right.distinct keys, ?_⟩
      intro key x y inLeft inRight
      exact ih (key, x) inLeft (left.fields _ inLeft) (right.fields _ inRight) fun u v inner =>
        faces u v (.field key inLeft inRight inner)

theorem fieldAt_of_not_mem {fields : List (JsString × ScopeValue)} {key : JsString}
    (absent : key ∉ fields.map Prod.fst) :
    ScopeValue.fieldAt fields key = .primitive .undefined := by
  have none : fields.lookup key = none := by
    refine List.lookup_eq_none_iff.mpr fun field present => bne_iff_ne.mpr fun same => absent ?_
    exact List.mem_map.mpr ⟨field, present, same.symm⟩
  rw [ScopeValue.fieldAt, none, Option.getD_none]

/-- Values with equal faces, and no mistake at any position, denote one scope. -/
theorem sameScope_of_faces (left : a.WellFormed) (right : b.WellFormed)
    (faces : ∀ u v, Facing a b u v → u.face = v.face)
    (sound : ∀ u v, Facing a b u v → ¬ Mistaken u v) : SameScope a b := by
  induction a using ScopeValue.induction generalizing b with
  | primitive p =>
    cases sameFace_of_eq (faces _ _ (.here _ _)) with
    | @primitives _ q same =>
      have equal : p = q := by
        by_contra differ
        refine sound _ _ (.here _ _) (.primitives ?_ ?_ differ)
        · by_contra shown
          exact differ (Primitive.eq_of_face same shown)
        · by_contra shown
          exact differ (Primitive.eq_of_face same (same ▸ shown))
      rw [equal]
      exact .primitive q
  | date d =>
    cases sameFace_of_eq (faces _ _ (.here _ _)) with
    | dates d e =>
      have equal : d = e := by
        by_contra differ
        exact sound _ _ (.here _ _) (.dates differ)
      rw [equal]
      exact .date e
    | dateObject d => exact absurd (.dateObject d) (sound _ _ (.here _ _))
  | array items ih =>
    cases sameFace_of_eq (faces _ _ (.here _ _)) with
    | @arrays _ others writtenShape =>
      have shape := shape_of_written writtenShape (sound _ _ (.here _ _))
      refine .array (by simpa using congrArg List.length shape) fun i => ?_
      have slots : items[i]?.map Option.isSome = others[i]?.map Option.isSome := by
        rw [← List.getElem?_map, shape, List.getElem?_map]
      rcases inLeft : items[i]? with _ | _ | x <;> rcases inRight : others[i]? with _ | _ | y <;>
        simp only [inLeft, inRight, Option.map_none, Option.map_some, Option.isSome_none,
          Option.isSome_some, reduceCtorEq, Option.some.injEq, Bool.false_eq_true] at slots
      case none.none | some.none.some.none =>
        rw [ScopeValue.itemAt, ScopeValue.itemAt, inLeft, inRight]
        exact .primitive .undefined
      case some.some.some.some =>
        rw [itemAt_of_item inLeft, itemAt_of_item inRight]
        have memLeft := List.mem_of_getElem? inLeft
        exact ih x memLeft (left.items x memLeft) (right.items y (List.mem_of_getElem? inRight))
          (fun u v inner => faces u v (.item i inLeft inRight inner))
          fun u v inner => sound u v (.item i inLeft inRight inner)
  | object fields ih =>
    cases sameFace_of_eq (faces _ _ (.here _ _)) with
    | objectDate d => exact absurd (.objectDate d) (sound _ _ (.here _ _))
    | @objects _ others keys =>
      refine .object fun key => ?_
      have listed : key ∈ fields.map Prod.fst ↔ key ∈ others.map Prod.fst := by
        rw [← List.mem_toFinset, keys, List.mem_toFinset]
      by_cases present : key ∈ fields.map Prod.fst
      · obtain ⟨⟨_, x⟩, inLeft, rfl⟩ := List.mem_map.mp present
        obtain ⟨⟨_, y⟩, inRight, hKey⟩ := List.mem_map.mp (listed.mp present)
        obtain rfl := hKey
        rw [fieldAt_of_mem left.distinct inLeft, fieldAt_of_mem right.distinct inRight]
        exact ih _ inLeft (left.fields _ inLeft) (right.fields _ inRight)
          (fun u v inner => faces u v (.field _ inLeft inRight inner))
          fun u v inner => sound u v (.field _ inLeft inRight inner)
      · rw [fieldAt_of_not_mem present, fieldAt_of_not_mem (listed.not.mp present)]
        exact .primitive .undefined

end Positions

/-! ### Detected changes -/

/-- The comparison of the two scopes can be relied on: a bigint makes it throw, or some position
differs in what the text shows, or no position holds two values that the text confuses. -/
def Tells (a b : ScopeValue) : Prop :=
  a.HoldsBigInt ∨ b.HoldsBigInt ∨ (∃ u v, Facing a b u v ∧ u.face ≠ v.face) ∨
    ∀ u v, Facing a b u v → ¬ Mistaken u v

section Changes

variable (lexis : JsonLexis) {a b : ScopeValue}

theorem immaterial_iff : isScopeChangeMaterial lexis a b = .ok false ↔
    ¬ a.HoldsBigInt ∧ ¬ b.HoldsBigInt ∧ a.canonical = b.canonical := by
  by_cases throws : a.HoldsBigInt ∨ b.HoldsBigInt
  · have error : isScopeChangeMaterial lexis a b = .error .bigint := by
      simp [isScopeChangeMaterial, scopesEqual_bigint lexis throws]
    simp only [error, reduceCtorEq, false_iff]
    tauto
  · rw [not_or] at throws
    obtain ⟨equal, compared, isEqual⟩ := scopesEqual_canonical lexis throws.1 throws.2
    simp [isScopeChangeMaterial, compared, throws, isEqual]

/-- A valid approval is for a scope without a material change. -/
theorem immaterial_of_valid {approval : ApprovalRecordView} {now : JsDate}
    (valid : approvalStillValid lexis approval b now = .ok true) :
    isScopeChangeMaterial lexis approval.exactScope b = .ok false := by
  unfold approvalStillValid at valid
  split at valid
  next => simp at valid
  next =>
    split at valid
    next => simp at valid
    next => simp [isScopeChangeMaterial, valid]

theorem sameScope_of_tells (left : a.WellFormed) (right : b.WellFormed) (tells : Tells a b)
    (immaterial : isScopeChangeMaterial lexis a b = .ok false) : SameScope a b := by
  obtain ⟨leftText, rightText, same⟩ := (immaterial_iff lexis).mp immaterial
  have faces : ∀ u v, Facing a b u v → u.face = v.face := fun u v facing =>
    face_of_canonical (facing.canonical left right same)
  rcases tells with throws | throws | ⟨u, v, facing, differ⟩ | sound
  · exact absurd throws leftText
  · exact absurd throws rightText
  · exact absurd (faces u v facing) differ
  · exact sameScope_of_faces left right faces sound

theorem tells_of_sameScope (left : a.WellFormed) (right : b.WellFormed)
    (detected : isScopeChangeMaterial lexis a b = .ok false → SameScope a b) : Tells a b := by
  by_cases throws : a.HoldsBigInt ∨ b.HoldsBigInt
  · exact throws.elim .inl fun h => .inr (.inl h)
  by_cases shown : ∃ u v, Facing a b u v ∧ u.face ≠ v.face
  · exact .inr (.inr (.inl shown))
  · have faces : ∀ u v, Facing a b u v → u.face = v.face := by
      intro u v facing
      by_contra differ
      exact shown ⟨u, v, facing, differ⟩
    rw [not_or] at throws
    have same := detected ((immaterial_iff lexis).mpr
      ⟨throws.1, throws.2, canonical_of_faces left right faces⟩)
    refine .inr (.inr (.inr fun u v facing mistaken => ?_))
    exact mistaken.not_sameScope (facing.sameScope left right same)

/-- A change that is not found material leaves the scope the same, and an approval that stays valid
is for the same scope, just where the comparison of the two can be relied on. -/
theorem scopeChange_detected_iff (left : a.WellFormed) (right : b.WellFormed) :
    ((isScopeChangeMaterial lexis a b = .ok false → SameScope a b) ↔ Tells a b) ∧
    ((∀ (approval : ApprovalRecordView) (now : JsDate), approval.exactScope = a →
      approvalStillValid lexis approval b now = .ok true → SameScope a b) ↔ Tells a b) := by
  refine ⟨⟨tells_of_sameScope lexis left right, sameScope_of_tells lexis left right⟩, ?_, ?_⟩
  · intro authorised
    refine tells_of_sameScope lexis left right fun immaterial => ?_
    refine authorised { decision := .approved, exactScope := a, expiresAt := none } ⟨none⟩ rfl ?_
    rw [approvalStillValid_of_live lexis rfl rfl]
    unfold isScopeChangeMaterial at immaterial
    cases compared : scopesEqual lexis a b with
    | error => simp [compared] at immaterial
    | ok equal => simpa [compared] using immaterial
  · rintro tells approval now rfl valid
    exact sameScope_of_tells lexis left right tells (immaterial_of_valid lexis valid)

end Changes

/-- A booking for a day, given as milliseconds. -/
def bookingScope (day : ℤ) : ScopeValue :=
  .object [(asciiString "day", .date ⟨some day⟩)]

/-- An approval for one day authorises a booking for another. -/
theorem bookingScope_missed :
    isScopeChangeMaterial .plain (bookingScope 0) (bookingScope 86400000) = .ok false ∧
      approvalStillValid .plain
        { decision := .approved, exactScope := bookingScope 0, expiresAt := none }
        (bookingScope 86400000) ⟨some 1000⟩ = .ok true ∧
      ¬ SameScope (bookingScope 0) (bookingScope 86400000) := by
  refine ⟨by decide +kernel, by decide +kernel, ?_⟩
  intro same
  have mistaken : Mistaken (.date ⟨some 0⟩) (.date ⟨some 86400000⟩) := .dates (by decide)
  cases same with
  | object fields => exact mistaken.not_sameScope (fields (asciiString "day"))

theorem bookingScope_wellFormed (day : ℤ) : (bookingScope day).WellFormed :=
  .object (by simp) (by simp [ScopeValue.WellFormed.date])

/-- The condition decides the two bookings. -/
theorem scopeChange_detected_iff_booking :
    (isScopeChangeMaterial .plain (bookingScope 0) (bookingScope 86400000) = .ok false →
      SameScope (bookingScope 0) (bookingScope 86400000)) ↔
    Tells (bookingScope 0) (bookingScope 86400000) :=
  (scopeChange_detected_iff .plain (bookingScope_wellFormed 0)
    (bookingScope_wellFormed 86400000)).1

end Donna
