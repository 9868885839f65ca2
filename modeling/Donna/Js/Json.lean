import Mathlib.Data.List.Forall2
import Donna.Js.Value

/-! JSON inside the JavaScript values: which values are JSON, what a value becomes when it is
serialised and parsed back, and equality up to the order of keys. -/

namespace Donna.Js.JsValue

mutual

/-- A value that a JSON text can denote: finite numbers, and objects with distinct keys. -/
def isJson : JsValue → Bool
  | .null | .boolean _ | .string _ => true
  | .number n => n.isFinite
  | .array items => areJson items
  | .object fields => decide (fields.map Prod.fst).Nodup && fieldsJson fields
  | .undefined | .function _ => false

def areJson : List JsValue → Bool
  | [] => true
  | item :: rest => isJson item && areJson rest

def fieldsJson : List (String × JsValue) → Bool
  | [] => true
  | (_, value) :: rest => isJson value && fieldsJson rest

end

mutual

/-- A value that `JSON.parse` returns: as a JSON value, but a literal beyond the doubles reads as an
infinity. -/
def isParsed : JsValue → Bool
  | .null | .boolean _ | .string _ => true
  | .number n => n != .nan
  | .array items => areParsed items
  | .object fields => decide (fields.map Prod.fst).Nodup && fieldsParsed fields
  | .undefined | .function _ => false

def areParsed : List JsValue → Bool
  | [] => true
  | item :: rest => isParsed item && areParsed rest

def fieldsParsed : List (String × JsValue) → Bool
  | [] => true
  | (_, value) :: rest => isParsed value && fieldsParsed rest

end

/-- Whether `JSON.stringify` leaves a property with this value out. -/
def unserialisable : JsValue → Bool
  | .undefined | .function _ => true
  | _ => false

mutual

/-- `JSON.parse(JSON.stringify(value))`: properties without a JSON value are dropped, array items
without one become `null`, and so do the non-finite numbers. -/
def jsonClone : JsValue → JsValue
  | .number n => if n.isFinite then .number n else .null
  | .array items => .array (cloneItems items)
  | .object fields => .object (cloneFields fields)
  | .function _ => .undefined
  | value => value

def cloneItems : List JsValue → List JsValue
  | [] => []
  | item :: rest => (if item.unserialisable then .null else jsonClone item) :: cloneItems rest

def cloneFields : List (String × JsValue) → List (String × JsValue)
  | [] => []
  | (key, value) :: rest =>
    if value.unserialisable then cloneFields rest else (key, jsonClone value) :: cloneFields rest

end

theorem unserialisable_of_isJson {value : JsValue} (h : value.isJson = true) :
    value.unserialisable = false := by
  cases value <;> first | rfl | simp [isJson] at h

mutual

theorem jsonClone_of_isJson : (value : JsValue) → value.isJson = true → value.jsonClone = value
  | .undefined, h | .function _, h => by simp [isJson] at h
  | .null, _ | .boolean _, _ | .string _, _ => by simp [jsonClone]
  | .number n, h => by
    have finite : n.isFinite = true := by simpa [isJson] using h
    simp [jsonClone, finite]
  | .array items, h => by
    have inner := cloneItems_of_areJson items (by simpa [isJson] using h)
    simp [jsonClone, inner]
  | .object fields, h => by
    have inner := cloneFields_of_fieldsJson fields (by simp [isJson] at h; exact h.2)
    simp [jsonClone, inner]

theorem cloneItems_of_areJson :
    (items : List JsValue) → areJson items = true → cloneItems items = items
  | [], _ => by simp [cloneItems]
  | item :: rest, h => by
    obtain ⟨hItem, hRest⟩ : item.isJson = true ∧ areJson rest = true := by simpa [areJson] using h
    simp [cloneItems, unserialisable_of_isJson hItem, jsonClone_of_isJson item hItem,
      cloneItems_of_areJson rest hRest]

theorem cloneFields_of_fieldsJson :
    (fields : List (String × JsValue)) → fieldsJson fields = true → cloneFields fields = fields
  | [], _ => by simp [cloneFields]
  | (key, value) :: rest, h => by
    obtain ⟨hValue, hRest⟩ : value.isJson = true ∧ fieldsJson rest = true := by
      simpa [fieldsJson] using h
    simp [cloneFields, unserialisable_of_isJson hValue, jsonClone_of_isJson value hValue,
      cloneFields_of_fieldsJson rest hRest]

end

mutual

theorem isParsed_of_isJson : (value : JsValue) → value.isJson = true →
    value.isParsed = true
  | .null, _ | .boolean _, _ | .string _, _ => rfl
  | .undefined, h | .function _, h => by simp [isJson] at h
  | .number n, h => by
    cases n with
    | finite q => rfl
    | infinity negative => cases h
    | nan => cases h
  | .array items, h => by
    rw [isJson] at h
    rw [isParsed, areParsed_of_areJson items h]
  | .object fields, h => by
    rw [isJson, Bool.and_eq_true] at h
    rw [isParsed, h.1, fieldsParsed_of_fieldsJson fields h.2]
    rfl

theorem areParsed_of_areJson : (items : List JsValue) → areJson items = true →
    areParsed items = true
  | [], _ => rfl
  | item :: rest, h => by
    rw [areJson, Bool.and_eq_true] at h
    rw [areParsed, isParsed_of_isJson item h.1,
      areParsed_of_areJson rest h.2]
    rfl

theorem fieldsParsed_of_fieldsJson : (fields : List (String × JsValue)) →
    fieldsJson fields = true → fieldsParsed fields = true
  | [], _ => rfl
  | (_, value) :: rest, h => by
    rw [fieldsJson, Bool.and_eq_true] at h
    rw [fieldsParsed, isParsed_of_isJson value h.1,
      fieldsParsed_of_fieldsJson rest h.2]
    rfl

end

theorem lookup_cloneFields_of_some {fields : List (String × JsValue)} {key : String}
    {value : JsValue} (found : fields.lookup key = some value)
    (kept : value.unserialisable = false) :
    (cloneFields fields).lookup key = some value.jsonClone := by
  induction fields with
  | nil => cases found
  | cons field rest ih =>
    obtain ⟨name, item⟩ := field
    by_cases same : key = name
    · subst same
      rw [List.lookup_cons_self] at found
      obtain rfl := Option.some.inj found
      simp [cloneFields, kept]
    · rw [List.lookup_cons, beq_false_of_ne same] at found
      rw [cloneFields]
      split
      · exact ih found
      · rw [List.lookup_cons, beq_false_of_ne same]
        exact ih found

/-- A property that a serialisation keeps. -/
theorem own_jsonClone_of_kept {value : JsValue} {key : String}
    (kept : (value.own key).unserialisable = false) :
    value.jsonClone.own key = (value.own key).jsonClone := by
  cases value with
  | object fields =>
    rw [own_object] at kept
    cases found : fields.lookup key with
    | none =>
      rw [found] at kept
      cases kept
    | some item =>
      rw [found] at kept
      rw [jsonClone, own_object, own_object, lookup_cloneFields_of_some found kept, found]
      rfl
  | _ => cases kept

theorem lookup_cloneFields_of_none {fields : List (String × JsValue)} {key : String}
    (missing : fields.lookup key = none) : (cloneFields fields).lookup key = none := by
  induction fields with
  | nil => rfl
  | cons field rest ih =>
    obtain ⟨name, value⟩ := field
    rw [lookup_field] at missing
    split at missing
    · cases missing
    · next other =>
      rw [cloneFields]
      split
      · exact ih missing
      · rw [lookup_field, if_neg other]
        exact ih missing

/-- A serialisation adds no property. -/
theorem own_jsonClone_of_missing {fields : List (String × JsValue)} {key : String}
    (missing : fields.lookup key = none) : (object fields).jsonClone.own key = .undefined := by
  rw [jsonClone, own_object, lookup_cloneFields_of_none missing]
  rfl

theorem own_jsonClone_string {value : JsValue} {key text : String}
    (written : value.own key = string text) : value.jsonClone.own key = string text := by
  rw [own_jsonClone_of_kept (by rw [written]; rfl), written]
  rfl

/-! ### Reading what was parsed -/

theorem unserialisable_of_isParsed {value : JsValue} (h : value.isParsed = true) :
    value.unserialisable = false := by
  cases value <;> first | rfl | simp [isParsed] at h

theorem isParsed_of_mem_fields {fields : List (String × JsValue)} {field : String × JsValue}
    (parsed : (object fields).isParsed = true) (listed : field ∈ fields) :
    field.2.isParsed = true := by
  have inner : fieldsParsed fields = true := by
    simp only [isParsed, Bool.and_eq_true] at parsed
    exact parsed.2
  clear parsed
  induction fields with
  | nil => cases listed
  | cons first rest ih =>
    obtain ⟨hFirst, hRest⟩ : first.2.isParsed = true ∧ fieldsParsed rest = true := by
      simpa [fieldsParsed] using inner
    rcases List.mem_cons.mp listed with rfl | later
    · exact hFirst
    · exact ih later hRest

theorem lookup_cloneFields {fields : List (String × JsValue)}
    (kept : ∀ field ∈ fields, field.2.unserialisable = false) (key : String) :
    (cloneFields fields).lookup key = (fields.lookup key).map jsonClone := by
  induction fields with
  | nil => rfl
  | cons field rest ih =>
    obtain ⟨name, value⟩ := field
    have here := kept _ List.mem_cons_self
    have later := ih fun field listed => kept field (List.mem_cons_of_mem _ listed)
    dsimp only at here
    rw [cloneFields, here]
    by_cases same : key = name
    · simp [same]
    · simpa [same] using later

theorem own_jsonClone_object {fields : List (String × JsValue)}
    (kept : ∀ field ∈ fields, field.2.unserialisable = false) (key : String) :
    (object fields).jsonClone.own key = ((object fields).own key).jsonClone := by
  rw [jsonClone, own_object, own_object, lookup_cloneFields kept]
  cases fields.lookup key <;> simp [jsonClone]

theorem own_jsonClone {value : JsValue} (parsed : value.isParsed = true) (key : String) :
    value.jsonClone.own key = (value.own key).jsonClone := by
  cases value with
  | object fields =>
    exact own_jsonClone_object
      (fun _ listed => unserialisable_of_isParsed (isParsed_of_mem_fields parsed listed)) key
  | number n => cases finite : n.isFinite <;> simp [jsonClone, finite, own]
  | _ => simp [jsonClone, own]

theorem isParsed_own {value : JsValue} (parsed : value.isParsed = true) {key : String}
    (present_ : value.own key ≠ .undefined) : (value.own key).isParsed = true := by
  cases value with
  | object fields =>
    rw [own_object] at present_ ⊢
    cases found : fields.lookup key with
    | none => simp [found] at present_
    | some item =>
      obtain ⟨before, after, rfl, -⟩ := List.lookup_eq_some_iff.mp found
      exact isParsed_of_mem_fields parsed (List.mem_append_right before List.mem_cons_self)
  | _ => exact absurd rfl present_

/-- Equality of the data in two values: arrays item by item, objects key by key, where a property
that is `undefined` counts as absent. -/
inductive DeepEq : JsValue → JsValue → Prop
  | refl (value : JsValue) : DeepEq value value
  | array {left right : List JsValue} (items : List.Forall₂ DeepEq left right) :
      DeepEq (.array left) (.array right)
  | object {left right : List (String × JsValue)}
      (fields : ∀ key, DeepEq ((object left).own key) ((object right).own key)) :
      DeepEq (.object left) (.object right)

namespace DeepEq

theorem undefined_left {value : JsValue} (h : DeepEq .undefined value) : value = .undefined := by
  cases h
  rfl

theorem undefined_right {value : JsValue} (h : DeepEq value .undefined) : value = .undefined := by
  cases h
  rfl

theorem boolean_left {b : Bool} {value : JsValue} (h : DeepEq (.boolean b) value) :
    value = .boolean b := by
  cases h
  rfl

theorem number_left {n : JsNumber} {value : JsValue} (h : DeepEq (.number n) value) :
    value = .number n := by
  cases h
  rfl

theorem string_left {s : String} {value : JsValue} (h : DeepEq (.string s) value) :
    value = .string s := by
  cases h
  rfl

theorem array_left {items : List JsValue} {value : JsValue} (h : DeepEq (.array items) value) :
    ∃ others, value = .array others ∧ List.Forall₂ DeepEq items others := by
  cases h with
  | refl => exact ⟨items, rfl, List.forall₂_same.mpr fun item _ => .refl item⟩
  | array inner => exact ⟨_, rfl, inner⟩

theorem object_left {fields : List (String × JsValue)} {value : JsValue}
    (h : DeepEq (.object fields) value) :
    ∃ others, value = .object others ∧
      ∀ key, DeepEq ((JsValue.object fields).own key) ((JsValue.object others).own key) := by
  cases h with
  | refl => exact ⟨fields, rfl, fun key => .refl _⟩
  | object inner => exact ⟨_, rfl, inner⟩

end DeepEq

/-- Two tables of properties, in one order, with equal data under each key; the first may list keys
that are absent from both. -/
inductive SameTable : List (String × Option JsValue) → List (String × Option JsValue) → Prop
  | nil : SameTable [] []
  | cons {key : String} {value other : Option JsValue} {left right}
      (same : DeepEq (value.getD .undefined) (other.getD .undefined))
      (rest : SameTable left right) : SameTable ((key, value) :: left) ((key, other) :: right)
  | skip {key : String} {left right} (absent : right.lookup key = none)
      (rest : SameTable left right) : SameTable ((key, none) :: left) right

theorem SameTable.deepEq {left right : List (String × Option JsValue)}
    (same : SameTable left right) (leftDistinct : (left.map Prod.fst).Nodup)
    (rightDistinct : (right.map Prod.fst).Nodup) :
    DeepEq (.object (present left)) (.object (present right)) := by
  refine .object fun key => ?_
  rw [own_present leftDistinct, own_present rightDistinct]
  clear leftDistinct rightDistinct
  induction same with
  | nil => exact .refl _
  | @cons name _ _ _ _ same _ ih =>
    by_cases here : key = name
    · simpa [here] using same
    · simpa [here] using ih
  | @skip name _ _ absent _ ih =>
    by_cases here : key = name
    · simpa [here, absent] using DeepEq.refl .undefined
    · simpa [here] using ih

end Donna.Js.JsValue
