import Donna.Adapters.PlainValues

/-! Inputs of every kind.  A work order can carry any value to an adapter: one that is no object,
one that contains itself, one with accessors that throw, with bigints or symbols, or with strings
that are no well-formed UTF-16.  `ValueSpace` gives what each value is as a `Kind`, and
`ValueSpace.language` is the language on such values; it leaves out accessors and conversions that
have an effect. -/

namespace Donna

open Js Operation

/-! ### Strings of code units -/

/-- The first of two surrogates. -/
def isLead (unit : Fin 0x10000) : Bool := decide (0xD800 ≤ unit.val) && decide (unit.val < 0xDC00)

/-- The second of two surrogates. -/
def isTrail (unit : Fin 0x10000) : Bool := decide (0xDC00 ≤ unit.val) && decide (unit.val < 0xE000)

def scalar (unit : Fin 0x10000) : Option Char :=
  if isLead unit || isTrail unit then none else some (Char.ofNat unit.val)

/-- The characters of a string, with `none` for a surrogate that has no partner. -/
def scalars : JsString → List (Option Char)
  | [] => []
  | [unit] => [scalar unit]
  | unit :: next :: rest =>
    if isLead unit && isTrail next then
      some (Char.ofNat (0x10000 + (unit.val - 0xD800) * 0x400 + (next.val - 0xDC00))) ::
        scalars rest
    else scalar unit :: scalars (next :: rest)

/-- The string with U+FFFD for each surrogate that has no partner. -/
def toWellFormed (units : JsString) : String :=
  String.ofList ((scalars units).map fun character => character.getD (Char.ofNat 0xFFFD))

def codeUnit (n : ℕ) : Fin 0x10000 := ⟨n % 0x10000, Nat.mod_lt n (by decide)⟩

def utf16Units (c : Char) : JsString := (codeUnits c).map codeUnit

def utf16 (text : String) : JsString := text.toList.flatMap utf16Units

theorem scalars_utf16Units (c : Char) (rest : JsString) :
    scalars (utf16Units c ++ rest) = some c :: scalars rest := by
  have valid : c.toNat < 0xD800 ∨ 0xDFFF < c.toNat ∧ c.toNat < 0x110000 := c.valid
  have same : Char.ofNat c.toNat = c := Char.ofNat_toNat c
  unfold utf16Units codeUnits
  split <;> simp only [List.map_cons, List.map_nil]
  next small =>
    have unit : (codeUnit c.toNat).val = c.toNat := Nat.mod_eq_of_lt small
    have lead : isLead (codeUnit c.toNat) = false := by
      rw [isLead, unit, Bool.and_eq_false_iff, decide_eq_false_iff_not, decide_eq_false_iff_not]
      omega
    have trail : isTrail (codeUnit c.toNat) = false := by
      rw [isTrail, unit, Bool.and_eq_false_iff, decide_eq_false_iff_not, decide_eq_false_iff_not]
      omega
    have alone : scalar (codeUnit c.toNat) = some c := by
      rw [scalar, lead, trail, unit, same]
      rfl
    generalize codeUnit c.toNat = unit at lead alone
    cases rest with
    | nil => simp [scalars, alone]
    | cons next rest => simp [scalars, lead, alone]
  next large =>
    let offset := c.toNat - 0x10000
    have bound : offset < 0x100000 := by omega
    have first : (codeUnit (0xD800 + offset / 0x400)).val = 0xD800 + offset / 0x400 :=
      Nat.mod_eq_of_lt (by omega)
    have second : (codeUnit (0xDC00 + offset % 0x400)).val = 0xDC00 + offset % 0x400 :=
      Nat.mod_eq_of_lt (by omega)
    have lead : isLead (codeUnit (0xD800 + offset / 0x400)) = true := by
      rw [isLead, first, Bool.and_eq_true, decide_eq_true_iff, decide_eq_true_iff]
      omega
    have trail : isTrail (codeUnit (0xDC00 + offset % 0x400)) = true := by
      rw [isTrail, second, Bool.and_eq_true, decide_eq_true_iff, decide_eq_true_iff]
      omega
    have whole : 0x10000 + (0xD800 + offset / 0x400 - 0xD800) * 0x400 +
        (0xDC00 + offset % 0x400 - 0xDC00) = c.toNat := by omega
    show scalars (_ :: _ :: rest) = _
    rw [scalars, lead, trail, first, second, whole, same]
    rfl

/-- A well-formed string is read back from its code units. -/
theorem toWellFormed_utf16 (text : String) : toWellFormed (utf16 text) = text := by
  have characters : ∀ chars : List Char, scalars (chars.flatMap utf16Units) = chars.map some := by
    intro chars
    induction chars with
    | nil => rfl
    | cons c chars ih => rw [List.flatMap_cons, scalars_utf16Units, ih, List.map_cons]
  rw [toWellFormed, utf16, characters]
  simp

/-! ### Values -/

/-- The properties of an object by their keys.  The read of one may throw. -/
abbrev Properties (ν : Type) := List (String × Except LanguageError ν)

/-- What a value is.  An object or a function comes with its own enumerable properties. -/
inductive Kind (ν : Type)
  | undefined
  | null
  | boolean (b : Bool)
  | number (n : JsNumber)
  | bigint (z : ℤ)
  | symbol
  | string (units : JsString)
  | object (properties : Properties ν)
  | function (properties : Properties ν)

/-- `JSON.stringify` writes or drops a value of this kind without reading a property of it. -/
def Kind.isJsonLeaf {ν : Type} : Kind ν → Bool
  | .bigint _ | .object _ => false
  | _ => true

/-- A finite tree without a bigint and without an accessor that throws. -/
inductive Serializable {ν : Type} (kind : ν → Kind ν) : ν → Prop
  | leaf {value : ν} (isLeaf : (kind value).isJsonLeaf = true) : Serializable kind value
  | object {value : ν} {properties : Properties ν} (isObject : kind value = .object properties)
      (readable : ∀ key error, (key, .error error) ∉ properties)
      (inner : ∀ key item, (key, .ok item) ∈ properties → Serializable kind item) :
      Serializable kind value

/-- The values `ν` that an input is made of, and the URLs `υ`.  The objects are those without
conversions to JSON of their own. -/
structure ValueSpace (ν υ : Type) where
  kind : ν → Kind ν
  undefined : ν
  string : String → ν
  object : List (String × ν) → ν
  kind_undefined : kind undefined = .undefined
  kind_string : ∀ text, kind (string text) = .string (utf16 text)
  kind_object : ∀ fields, kind (object fields) =
    .object (fields.map fun field => (field.1, .ok field.2))
  /-- `===` on values that are no strings. -/
  identical : ν → ν → Bool
  /-- The text of a value that is neither a string nor an object; of a symbol its description. -/
  primitiveText : ν → JsString
  /-- What the conversion of an object or a function to a text gives. -/
  objectText : ν → Except LanguageError JsString
  /-- The properties of a string, one for each code unit. -/
  unitFields : JsString → List (String × ν)
  stringify : ν → Except LanguageError ν
  stringify_returns : ∀ value,
    (∃ text, stringify value = .ok text) ↔ Serializable kind value
  typeError : LanguageError
  uriError : LanguageError
  parse : String → υ → Except LanguageError υ
  origin : υ → String
  setSearchParam : υ → String → String → υ
  href : υ → String

/-- A computation that leaves no trace in the world. -/
def effectless {α : Type} (value : Except LanguageError α) : Operation Unit LanguageError α :=
  fun world => value.map fun result => (result, world)

@[simp] theorem effectless_returns {α : Type} {value : Except LanguageError α}
    {after : α → Unit → Prop} :
    (effectless value).Returns () after ↔ ∃ result, value = .ok result ∧ after result () := by
  cases value with
  | error error => simp [effectless, Operation.Returns, Except.map]
  | ok result =>
    constructor
    · rintro ⟨_, ⟨⟩, ⟨⟩, holds⟩
      exact ⟨result, rfl, holds⟩
    · rintro ⟨_, ⟨⟩, holds⟩
      exact ⟨result, (), rfl, holds⟩

/-- Read all properties. -/
def readAll {ν : Type} (properties : Properties ν) : Except LanguageError (List (String × ν)) :=
  properties.mapM fun property => do
    let value ← property.2
    pure (property.1, value)

theorem readAll_eq_ok {ν : Type} {properties : Properties ν} {fields : List (String × ν)} :
    readAll properties = .ok fields ↔
      properties = fields.map fun field => (field.1, .ok field.2) := by
  induction properties generalizing fields with
  | nil => cases fields <;> simp [readAll]
  | cons property properties ih =>
    rcases property with ⟨key, error | value⟩
    · cases fields <;> simp [readAll]
    · have rest : readAll ((key, .ok value) :: properties) =
          (readAll properties).map ((key, value) :: ·) := by
        simp only [readAll, List.mapM_cons, ok_bind, pure_except]
        cases properties.mapM fun property => (do
          let value ← property.2
          pure (property.1, value) : Except LanguageError (String × ν)) <;> rfl
      rw [rest]
      cases fields with
      | nil => cases readAll properties <;> simp [Except.map]
      | cons field fields =>
        rw [List.map_cons, List.cons.injEq, ← ih]
        cases readAll properties <;> simp [Except.map, Prod.ext_iff]

namespace ValueSpace

variable {ν υ : Type} (values : ValueSpace ν υ)

def isUndefined (value : ν) : Bool :=
  match values.kind value with
  | .undefined => true
  | _ => false

def isNullish (value : ν) : Bool :=
  match values.kind value with
  | .undefined | .null => true
  | _ => false

def isString (value : ν) : Bool :=
  match values.kind value with
  | .string _ => true
  | _ => false

/-- The value is the string with this text. -/
def isText (value : ν) (text : String) : Bool :=
  match values.kind value with
  | .string units => decide (units = utf16 text)
  | _ => false

def strictEq (value other : ν) : Bool :=
  match values.kind value, values.kind other with
  | .string units, .string units' => decide (units = units')
  | .string _, _ | _, .string _ => false
  | _, _ => values.identical value other

/-- The own enumerable properties of a value. -/
def own (value : ν) : Properties ν :=
  match values.kind value with
  | .object properties | .function properties => properties
  | .string units => (values.unitFields units).map fun field => (field.1, .ok field.2)
  | _ => []

/-- `value[key]`, for a key that no prototype has. -/
def read (value : ν) (key : String) : Except LanguageError ν :=
  match values.kind value with
  | .undefined | .null => .error values.typeError
  | .object properties | .function properties =>
    (properties.lookup key).getD (.ok values.undefined)
  | _ => .ok values.undefined

/-- The conversion of a value to a text, which takes no symbol. -/
def text (value : ν) : Except LanguageError JsString :=
  match values.kind value with
  | .symbol => .error values.typeError
  | .string units => .ok units
  | .object _ | .function _ => values.objectText value
  | _ => .ok (values.primitiveText value)

/-- `String(value)`. -/
def display (value : ν) : Except LanguageError JsString :=
  match values.kind value with
  | .symbol => .ok (values.primitiveText value)
  | _ => values.text value

/-- `encodeURIComponent(value)`. -/
def encoded (value : ν) : Except LanguageError String := do
  let units ← values.text value
  if none ∈ scalars units then throw values.uriError
  else pure (encodeURIComponent (toWellFormed units))

/-- `new URL(value, base)`. -/
def resolved (value : ν) (base : υ) : Except LanguageError υ := do
  let units ← values.text value
  values.parse (toWellFormed units) base

def language : Language Unit LanguageError ν υ where
  undefined := values.undefined
  string := values.string
  object := values.object
  isUndefined := values.isUndefined
  isNullish := values.isNullish
  isString := values.isString
  strictEq := values.strictEq
  get value key := effectless (values.read value key)
  toText value := effectless (toWellFormed <$> values.display value)
  interpolate value := effectless (toWellFormed <$> values.text value)
  entries value := effectless
    (if values.isNullish value then .error values.typeError else readAll (values.own value))
  spread value excluded := effectless
    (readAll ((values.own value).filter fun property => decide (property.1 ∉ excluded)))
  encodeURIComponent value := effectless (values.encoded value)
  stringify value := effectless (values.stringify value)
  parseUrl value base := effectless (values.resolved value base)
  origin := values.origin
  setSearchParam := values.setSearchParam
  href := values.href
  get_undefined key world :=
    ⟨values.typeError, by simp [effectless, read, values.kind_undefined, Except.map]⟩

section Language

variable {values} {value other base : ν}

@[simp] theorem language_get (key : String) :
    values.language.get value key = effectless (values.read value key) := rfl

@[simp] theorem language_toText :
    values.language.toText value = effectless (toWellFormed <$> values.display value) := rfl

@[simp] theorem language_interpolate :
    values.language.interpolate value = effectless (toWellFormed <$> values.text value) := rfl

@[simp] theorem language_entries : values.language.entries value = effectless
    (if values.isNullish value then .error values.typeError else readAll (values.own value)) := rfl

@[simp] theorem language_spread (excluded : List String) :
    values.language.spread value excluded = effectless
      (readAll ((values.own value).filter fun property => decide (property.1 ∉ excluded))) := rfl

@[simp] theorem language_encodeURIComponent :
    values.language.encodeURIComponent value = effectless (values.encoded value) := rfl

@[simp] theorem language_stringify :
    values.language.stringify value = effectless (values.stringify value) := rfl

@[simp] theorem language_parseUrl (base : υ) :
    values.language.parseUrl value base = effectless (values.resolved value base) := rfl

@[simp] theorem language_isUndefined :
    values.language.isUndefined value = values.isUndefined value := rfl

@[simp] theorem language_isString :
    values.language.isString value = values.isString value := rfl

@[simp] theorem language_origin (url : υ) : values.language.origin url = values.origin url := rfl

/-- A comparison with a literal. -/
@[simp] theorem language_strictEq (text : String) :
    values.language.strictEq value (values.language.string text) = values.isText value text := by
  show values.strictEq value (values.string text) = values.isText value text
  unfold strictEq isText
  rw [values.kind_string]
  cases values.kind value <;> rfl

/-- A value with a literal for what is missing. -/
theorem isText_orElse (text : String) : values.isText
    (values.language.orElse value (values.language.string text)) text =
      (values.isNullish value || values.isText value text) := by
  have literal : values.isText (values.language.string text) text = true := by
    show values.isText (values.string text) text = true
    simp [isText, values.kind_string]
  show values.isText (if values.isNullish value = true then _ else _) text = _
  split
  next missing => rw [literal, missing, Bool.true_or]
  next present => rw [eq_false_of_ne_true present, Bool.false_or]

end Language

/-! Literals of objects. -/

section Literals

variable {values}

theorem read_object (fields : List (String × ν)) (key : String) :
    values.read (values.object fields) key =
      .ok ((fields.lookup key).getD values.undefined) := by
  have found : (fields.map fun field => (field.1, (.ok field.2 : Except LanguageError ν))).lookup
      key = (fields.lookup key).map .ok := by
    induction fields with
    | nil => rfl
    | cons field fields ih =>
      rw [List.map_cons, List.lookup_cons, List.lookup_cons, ih]
      cases key == field.1 <;> rfl
  simp only [read, values.kind_object, found]
  cases fields.lookup key <;> rfl

theorem serializable_object {fields : List (String × ν)} :
    Serializable values.kind (values.object fields) ↔
      ∀ key item, (key, item) ∈ fields → Serializable values.kind item := by
  have kind := values.kind_object fields
  constructor
  · intro serializable key item present
    cases serializable with
    | leaf isLeaf =>
      rw [kind] at isLeaf
      cases isLeaf
    | object isObject _ inner =>
      obtain rfl := Kind.object.inj (kind.symm.trans isObject)
      exact inner key item (List.mem_map.mpr ⟨(key, item), present, rfl⟩)
  · intro inner
    refine .object kind (by simp) fun key item present => ?_
    obtain ⟨field, listed, same⟩ := List.mem_map.mp present
    obtain ⟨rfl, hItem⟩ := Prod.mk.inj same
    obtain rfl := Except.ok.inj hItem
    exact inner _ _ listed

theorem resolved_string (path : String) (base : υ) :
    values.resolved (values.string path) base = values.parse path base := by
  simp only [resolved, text, values.kind_string, ok_bind, toWellFormed_utf16]

end Literals

end ValueSpace

/-! ### Plain values -/

def plainKind : JsValue → Kind JsValue
  | .undefined => .undefined
  | .null => .null
  | .boolean b => .boolean b
  | .number n => .number n
  | .string text => .string (utf16 text)
  | .array items => .object (items.zipIdx.map fun item => (toString item.2, .ok item.1))
  | .object fields => .object (fields.map fun field => (field.1, .ok field.2))
  | .function _ => .function []

mutual

/-- A plain value is a finite tree without bigints. -/
theorem serializable_plain : ∀ value : JsValue, Serializable plainKind value
  | .undefined | .null | .boolean _ | .number _ | .string _ | .function _ => .leaf rfl
  | .array items => by
    refine .object rfl (by simp) fun key item present => ?_
    obtain ⟨slot, listed, same⟩ := List.mem_map.mp present
    obtain ⟨-, hItem⟩ := Prod.mk.inj same
    obtain rfl := Except.ok.inj hItem
    exact serializable_items items _ (List.fst_mem_of_mem_zipIdx listed)
  | .object fields => by
    refine .object rfl (by simp) fun key item present => ?_
    obtain ⟨field, listed, same⟩ := List.mem_map.mp present
    obtain ⟨-, hItem⟩ := Prod.mk.inj same
    obtain rfl := Except.ok.inj hItem
    exact serializable_fields fields _ listed

theorem serializable_items : ∀ items : List JsValue, ∀ item ∈ items, Serializable plainKind item
  | [], _, present => absurd present List.not_mem_nil
  | first :: rest, item, present => by
    rcases List.mem_cons.mp present with same | later
    · rw [same]
      exact serializable_plain first
    · exact serializable_items rest item later

theorem serializable_fields : ∀ fields : List (String × JsValue), ∀ field ∈ fields,
    Serializable plainKind field.2
  | [], _, present => absurd present List.not_mem_nil
  | (key, value) :: rest, field, present => by
    rcases List.mem_cons.mp present with same | later
    · rw [same]
      exact serializable_plain value
    · exact serializable_fields rest field later

end

/-- The plain values of the platform. -/
def WebPlatform.values (platform : WebPlatform) : ValueSpace JsValue Url where
  kind := plainKind
  undefined := .undefined
  string := .string
  object := .object
  kind_undefined := rfl
  kind_string _ := rfl
  kind_object _ := rfl
  identical := JsValue.strictEq
  primitiveText value :=
    utf16 (match value.toStr platform.realm with
      | .ok text => text
      | .error _ => "")
  objectText value :=
    ((value.toStr platform.realm).map utf16).mapError LanguageError.typeError
  unitFields units := platform.codeUnitEntries (toWellFormed units)
  stringify value :=
    .ok (if value.unserialisable then .undefined else .string (platform.jsonText value))
  stringify_returns value := iff_of_true ⟨_, rfl⟩ (serializable_plain value)
  typeError := .typeError .notAnObject
  uriError := .typeError .noPrimitive
  parse text base :=
    match Url.parse platform.elsewhere text base with
    | some url => .ok url
    | none => .error .invalidUrl
  origin := Url.origin
  setSearchParam := platform.setSearchParam
  href := Url.href

end Donna
