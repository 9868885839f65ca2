import Mathlib.Data.List.Infix
import Mathlib.Algebra.Order.Ring.Unbundled.Rat
import Donna.Base.Doubles

/-! JavaScript values and the operators that dynamically typed code applies to them: property
access, `===`, the relational operators, arithmetic on mixed operands, truthiness, and the
`includes` methods.  Numbers are rationals with the non-finite values beside them; arithmetic rounds
its results to doubles, and a zero has no sign.  The parts of the language that depend on a full
number formatter or on the standard prototypes are the fields of a `Realm`, so a theorem about
every realm covers the real one. -/

namespace Donna.Js

/-- A number: a finite double as the rational it denotes, an infinity, or `NaN`. -/
inductive JsNumber
  | finite (q : ℚ)
  | infinity (negative : Bool)
  | nan
  deriving DecidableEq

/-- A string: its UTF-16 code units, with or without their surrogate partners. -/
abbrev JsString := List (Fin 0x10000)

/-- A value.  Absent properties read as `undefined`; a `function` is a built-in one, of which only
the source text is observable. -/
inductive JsValue
  | undefined
  | null
  | boolean (b : Bool)
  | number (n : JsNumber)
  | string (s : String)
  | array (items : List JsValue)
  | object (fields : List (String × JsValue))
  | function (source : String)

/-- What the operators below can throw. -/
inductive TypeError
  | notAnObject
  | notCallable
  | noPrimitive
  deriving DecidableEq

/-- The parts of the language that this model leaves open: number formatting and parsing, and the
members that a value has besides its own fields. -/
structure Realm where
  numberToString : JsNumber → String
  stringToNumber : String → JsNumber
  member : JsValue → String → JsValue

/-- A realm for examples: decimal integers, and no members besides the own ones. -/
def Realm.plain : Realm where
  numberToString
    | .finite q => toString q
    | .infinity negative => if negative then "-Infinity" else "Infinity"
    | .nan => "NaN"
  stringToNumber s := (s.toInt?.map fun z => JsNumber.finite z).getD .nan
  member _ _ := .undefined

/-! ### Computations that may throw -/

section Throwing

variable {ε α β : Type}

@[simp] theorem pure_except (value : α) : (pure value : Except ε α) = .ok value := rfl

@[simp] theorem throw_except (error : ε) : (throw error : Except ε α) = .error error := rfl

@[simp] theorem ok_bind (value : α) (next : α → Except ε β) :
    (Except.ok value >>= next) = next value := rfl

@[simp] theorem error_bind (error : ε) (next : α → Except ε β) :
    (Except.error error >>= next) = .error error := rfl

theorem bind_eq_ok {value : Except ε α} {next : α → Except ε β} {result : β} :
    (value >>= next) = .ok result ↔ ∃ given, value = .ok given ∧ next given = .ok result := by
  cases value <;> simp

theorem bind_eq_error {value : Except ε α} {next : α → Except ε β} {error : ε} :
    (value >>= next) = .error error ↔
      value = .error error ∨ ∃ given, value = .ok given ∧ next given = .error error := by
  cases value <;> simp

end Throwing

/-! ### Numbers -/

namespace JsNumber

/-- `a < b`, which is false when either is `NaN`. -/
def lt : JsNumber → JsNumber → Bool
  | .finite a, .finite b => decide (a < b)
  | .finite _, .infinity negative => !negative
  | .infinity negative, .finite _ => negative
  | .infinity a, .infinity b => a && !b
  | _, _ => false

/-- `a <= b`, which is false when either is `NaN`. -/
def le : JsNumber → JsNumber → Bool
  | .nan, _ => false
  | _, .nan => false
  | a, b => !lt b a

/-- The double that an exact result is rounded to, which is infinite beyond the finite ones. -/
def round (q : ℚ) : JsNumber :=
  if |Doubles.nearest q| < 2 ^ 1024 then .finite (Doubles.nearest q)
  else .infinity (decide (q < 0))

def add : JsNumber → JsNumber → JsNumber
  | .finite a, .finite b => round (a + b)
  | .infinity negative, .finite _ | .finite _, .infinity negative => .infinity negative
  | .infinity a, .infinity b => if a = b then .infinity a else .nan
  | _, _ => .nan

def div : JsNumber → JsNumber → JsNumber
  | .finite a, .finite b =>
    if b ≠ 0 then round (a / b) else if a ≠ 0 then .infinity (decide (a < 0)) else .nan
  | .infinity negative, .finite b => .infinity (negative != decide (b < 0))
  | .finite _, .infinity _ => .finite 0
  | _, _ => .nan

def sub : JsNumber → JsNumber → JsNumber
  | .finite a, .finite b => round (a - b)
  | .infinity negative, .finite _ => .infinity negative
  | .finite _, .infinity negative => .infinity !negative
  | .infinity a, .infinity b => if a = b then .nan else .infinity a
  | _, _ => .nan

def isFinite : JsNumber → Bool
  | .finite _ => true
  | _ => false

/-- `a === b`: `NaN` equals nothing. -/
def strictEq : JsNumber → JsNumber → Bool
  | .nan, .nan => false
  | a, b => decide (a = b)

@[simp] theorem lt_finite (a b : ℚ) : lt (.finite a) (.finite b) = decide (a < b) := rfl

@[simp] theorem le_finite (a b : ℚ) : le (.finite a) (.finite b) = decide (a ≤ b) := by
  by_cases h : a ≤ b
  · simp [le, h, not_lt.mpr h]
  · simp [le, h, lt_of_not_ge h]

@[simp] theorem sub_finite (a b : ℚ) : sub (.finite a) (.finite b) = round (a - b) := rfl

/-- Between zero and a natural number that is a double, a result is rounded to one between them. -/
theorem round_between {q : ℚ} {n : ℕ} (small : n < 2 ^ 53) (nonneg : 0 ≤ q) (below : q ≤ n) :
    ∃ r, round q = .finite r ∧ 0 ≤ r ∧ r ≤ n := by
  have lower := Doubles.nearest_nonneg nonneg
  have upper := Doubles.nearest_le_natCast small nonneg below
  have finite : |Doubles.nearest q| < 2 ^ 1024 := by
    rw [abs_of_nonneg lower]
    have bound : (n : ℚ) < 2 ^ 53 := by exact_mod_cast small
    exact (upper.trans_lt bound).trans (pow_lt_pow_right₀ one_lt_two (by norm_num))
  exact ⟨_, if_pos finite, lower, upper⟩

theorem le_round {q : ℚ} (nonneg : 0 ≤ q) : (JsNumber.finite 0).le (round q) = true := by
  unfold round
  split
  · rw [le_finite, decide_eq_true (Doubles.nearest_nonneg nonneg)]
  · rw [decide_eq_false nonneg.not_gt]
    rfl

theorem le_add {a b : JsNumber} (left : (JsNumber.finite 0).le a = true)
    (right : (JsNumber.finite 0).le b = true) : (JsNumber.finite 0).le (a.add b) = true := by
  cases a with
  | finite a =>
    cases b with
    | finite b => exact le_round (add_nonneg (by simpa using left) (by simpa using right))
    | infinity negative => exact right
    | nan => cases right
  | infinity negative =>
    cases b with
    | finite b => exact left
    | infinity other =>
      cases negative with
      | true => cases left
      | false =>
        cases other with
        | true => cases right
        | false => rfl
    | nan => cases right
  | nan => cases left

theorem le_div {a : JsNumber} {b : ℚ} (nonneg : (JsNumber.finite 0).le a = true)
    (positive : 0 < b) : (JsNumber.finite 0).le (a.div (.finite b)) = true := by
  cases a with
  | finite a =>
    rw [div, if_pos positive.ne']
    exact le_round (div_nonneg (by simpa using nonneg) positive.le)
  | infinity negative =>
    rw [div, decide_eq_false positive.not_gt]
    simpa using nonneg
  | nan => cases nonneg

end JsNumber

/-! ### Values -/

/-- The UTF-16 code units of a character. -/
def codeUnits (c : Char) : List ℕ :=
  if c.toNat < 0x10000 then [c.toNat]
  else [0xD800 + (c.toNat - 0x10000) / 0x400, 0xDC00 + (c.toNat - 0x10000) % 0x400]

def stringLt (a b : String) : Bool :=
  decide (a.toList.flatMap codeUnits < b.toList.flatMap codeUnits)

/-- The white space and the line ends that `trim` removes. -/
def isTrimmed (c : Char) : Bool :=
  c.toNat ∈ [0x9, 0xA, 0xB, 0xC, 0xD, 0x20, 0xA0, 0x1680, 0x2028, 0x2029, 0x202F, 0x205F, 0x3000,
    0xFEFF] || (0x2000 ≤ c.toNat && c.toNat ≤ 0x200A)

/-- `s.trim()`. -/
def trim (s : String) : String :=
  String.ofList (((s.toList.dropWhile isTrimmed).reverse.dropWhile isTrimmed).reverse)

namespace JsValue

/-- `typeof value === 'string'`, with the string. -/
def asString : JsValue → Option String
  | .string s => some s
  | _ => none

def strings (items : List String) : JsValue := .array (items.map .string)

/-- An own property of an object; every other value has none under a name that source code writes
out. -/
def own : JsValue → String → JsValue
  | .object fields, key => (fields.lookup key).getD .undefined
  | _, _ => .undefined

/-- `value.key` for a name that the source writes out. -/
def get (value : JsValue) (key : String) : Except TypeError JsValue :=
  match value with
  | .undefined | .null => throw .notAnObject
  | value => pure (value.own key)

/-- `value[key]` for a computed name, which can reach the members that `realm` adds. -/
def getComputed (realm : Realm) (value : JsValue) (key : String) : Except TypeError JsValue :=
  match value with
  | .undefined | .null => throw .notAnObject
  | .object fields => pure ((fields.lookup key).getD (realm.member (.object fields) key))
  | value => pure (realm.member value key)

def orElse : JsValue → JsValue → JsValue
  | .undefined, fallback | .null, fallback => fallback
  | value, _ => value

/-- Whether `value` counts as true in a condition. -/
def truthy : JsValue → Bool
  | .undefined | .null => false
  | .boolean b => b
  | .number n => n != .finite 0 && n != .nan
  | .string s => s != ""
  | .array _ | .object _ | .function _ => true

/-- `a === b` for values at different places of one parsed payload, whose arrays and objects are
different references. -/
def strictEq : JsValue → JsValue → Bool
  | .undefined, .undefined => true
  | .null, .null => true
  | .boolean a, .boolean b => a == b
  | .number a, .number b => a.strictEq b
  | .string a, .string b => decide (a = b)
  | _, _ => false

/-- The comparison of `Array.prototype.includes`: as `===`, but `NaN` equals itself. -/
def sameValueZero : JsValue → JsValue → Bool
  | .number a, .number b => decide (a = b)
  | a, b => a.strictEq b

def isUndefined : JsValue → Bool
  | .undefined => true
  | _ => false

section Conversions

variable (realm : Realm)

mutual

/-- `String(value)`.  An object whose own `toString` is not callable has no primitive value. -/
def toStr : JsValue → Except TypeError String
  | .undefined => pure "undefined"
  | .null => pure "null"
  | .boolean b => pure (if b then "true" else "false")
  | .number n => pure (realm.numberToString n)
  | .string s => pure s
  | .array items => do
    let parts ← joinParts items
    pure (",".intercalate parts)
  | .object fields =>
    if (fields.lookup "toString").isSome then throw .noPrimitive else pure "[object Object]"
  | .function source => pure source

/-- The parts that `Array.prototype.join` puts together: `undefined` and `null` leave no text. -/
def joinParts : List JsValue → Except TypeError (List String)
  | [] => pure []
  | .undefined :: rest | .null :: rest => do
    let parts ← joinParts rest
    pure ("" :: parts)
  | item :: rest => do
    let part ← toStr item
    let parts ← joinParts rest
    pure (part :: parts)

end

/-- `ToPrimitive`: arrays, objects and functions become their string. -/
def toPrimitive : JsValue → Except TypeError JsValue
  | .array items => .string <$> toStr realm (.array items)
  | .object fields => .string <$> toStr realm (.object fields)
  | .function source => .string <$> toStr realm (.function source)
  | value => pure value

/-- `Number(value)` of a primitive value. -/
def primitiveToNumber : JsValue → JsNumber
  | .null => .finite 0
  | .boolean b => .finite (if b then 1 else 0)
  | .number n => n
  | .string s => realm.stringToNumber s
  | _ => .nan

def toNumber (value : JsValue) : Except TypeError JsNumber := do
  let primitive ← value.toPrimitive realm
  pure (primitive.primitiveToNumber realm)

/-- `a > b`: two strings compare by code units, anything else as numbers. -/
def greaterThan (a b : JsValue) : Except TypeError Bool := do
  let left ← a.toPrimitive realm
  let right ← b.toPrimitive realm
  match left, right with
  | .string s, .string t => pure (stringLt t s)
  | left, right => pure ((right.primitiveToNumber realm).lt (left.primitiveToNumber realm))

def minus (a b : JsValue) : Except TypeError JsNumber := do
  let left ← a.toNumber realm
  let right ← b.toNumber realm
  pure (left.sub right)

/-- `value.includes(item)` on an array or a string; nothing else has the method. -/
def includes (value item : JsValue) : Except TypeError Bool :=
  match value with
  | .array items => pure (items.any item.sameValueZero)
  | .string s => do
    let text ← item.toStr realm
    pure (decide (text.toList <:+: s.toList))
  | .undefined | .null => throw .notAnObject
  | _ => throw .notCallable

end Conversions

@[simp] theorem lookup_field {α : Type} (key name : String) (value : α)
    (rest : List (String × α)) :
    ((name, value) :: rest).lookup key = if key = name then some value else rest.lookup key := by
  by_cases h : key = name
  · rw [List.lookup_cons, h, beq_self_eq_true, if_pos rfl]
  · rw [List.lookup_cons, beq_false_of_ne h, if_neg h]

@[simp] theorem own_object (fields : List (String × JsValue)) (key : String) :
    (object fields).own key = (fields.lookup key).getD .undefined := rfl

@[simp] theorem get_object (fields : List (String × JsValue)) (key : String) :
    (object fields).get key = .ok ((object fields).own key) := rfl

/-- The properties of an object literal in which the absent ones are not spread. -/
def present : List (String × Option JsValue) → List (String × JsValue)
  | [] => []
  | (key, some value) :: rest => (key, value) :: present rest
  | (_, none) :: rest => present rest

theorem lookup_present {table : List (String × Option JsValue)}
    (distinct : (table.map Prod.fst).Nodup) (key : String) :
    (present table).lookup key = (table.lookup key).join := by
  induction table with
  | nil => rfl
  | cons field rest ih =>
    obtain ⟨name, value⟩ := field
    obtain ⟨fresh, hRest⟩ := List.nodup_cons.mp distinct
    by_cases here : key = name
    · subst here
      have missing : rest.lookup key = none := by
        rw [List.lookup_eq_none_iff]
        rintro ⟨other, item⟩ listed
        rw [bne_iff_ne]
        rintro rfl
        exact fresh (List.mem_map.mpr ⟨_, listed, rfl⟩)
      cases value with
      | none =>
        rw [present, ih hRest, missing, List.lookup_cons_self]
        rfl
      | some value => simp [present]
    · rw [List.lookup_cons, beq_false_of_ne here]
      cases value with
      | none => exact ih hRest
      | some value => simpa [present, here] using ih hRest

theorem own_present {table : List (String × Option JsValue)}
    (distinct : (table.map Prod.fst).Nodup) (key : String) :
    (object (present table)).own key = (table.lookup key).join.getD .undefined := by
  rw [own_object, lookup_present distinct]

theorem strictEq_string {v : JsValue} {s : String} :
    v.strictEq (.string s) = true ↔ v = .string s := by
  cases v <;> simp [strictEq]

theorem sameValueZero_string {v : JsValue} {s : String} :
    v.sameValueZero (.string s) = true ↔ v = .string s := by
  cases v <;> simp [sameValueZero, strictEq]

theorem greaterThan_finite (realm : Realm) (a b : ℚ) :
    greaterThan realm (.number (.finite a)) (.number (.finite b)) = .ok (decide (b < a)) := rfl

@[simp] theorem includes_strings (realm : Realm) (ids : List String) (id : String) :
    includes realm (strings ids) (.string id) = .ok (decide (id ∈ ids)) := by
  have h : (ids.map JsValue.string).any (JsValue.string id).sameValueZero = decide (id ∈ ids) := by
    induction ids with
    | nil => rfl
    | cons head rest ih =>
      simp only [List.map_cons, List.any_cons, ih, sameValueZero, strictEq, List.mem_cons,
        Bool.decide_or]
  exact congrArg Except.ok h

end JsValue

end Donna.Js
