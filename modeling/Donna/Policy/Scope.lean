import Donna.Base.JsonText
import Donna.Js.Value
import Mathlib.Data.List.Lex
import Mathlib.Data.List.Sort

/-! The comparison of approval scopes.  Scopes arrive as values of type `unknown`, and the approval
helpers compare them by a serialisation with sorted keys.  `canonical` is the JSON tree that this
serialisation writes, so two scopes compare equal just when they have one tree. -/

namespace Donna

open Js

inductive Primitive
  | undefined
  | null
  | boolean (b : Bool)
  | number (n : JsNumber)
  | string (s : JsString)
  | bigint (z : ℤ)
  | symbol (identity : ℕ)
  deriving DecidableEq

/-- A `Date` by its time value in milliseconds; an invalid date has none. -/
structure JsDate where
  time : Option ℤ
  deriving DecidableEq

/-- The data that scopes are built from: primitives, dates, arrays, and objects with their own
enumerable fields under string keys.  An index of an array that has no property is a hole, `none`,
as every index of `new Array(2)` is. -/
inductive ScopeValue
  | primitive (value : Primitive)
  | date (date : JsDate)
  | array (items : List (Option ScopeValue))
  | object (fields : List (JsString × ScopeValue))

/-- `JSON.stringify` does not know how to serialise a bigint. -/
inductive StringifyError
  | bigint
  deriving DecidableEq

/-- How `JSON.stringify` writes strings and finite numbers. -/
abbrev JsonLexis := Json.Lexis JsString ℚ

/-- The order of `sort()` on keys, for entries. -/
def byKey {α : Type} (first second : JsString × α) : Prop := first.1 ≤ second.1

instance {α : Type} : DecidableRel (byKey (α := α)) :=
  fun _ _ => inferInstanceAs (Decidable (_ ≤ _))

section Stringify

variable (lexis : JsonLexis)

/-- `JSON.stringify(value)` of a primitive, which can be `undefined`. -/
def jsonStringify : Primitive → Except StringifyError (Option String)
  | .undefined | .symbol _ => .ok none
  | .null => .ok (some "null")
  | .boolean b => .ok (some (if b then "true" else "false"))
  | .number (.finite q) => .ok (some (lexis.number q))
  | .number _ => .ok (some "null")
  | .string s => .ok (some (lexis.quote s))
  | .bigint _ => .error .bigint

mutual

def stableStringify : ScopeValue → Except StringifyError String
  | .primitive value => do
    let text ← jsonStringify lexis value
    pure (text.getD "null")
  | .array items => do
    let texts ← stringifyItems items
    pure ("[" ++ ",".intercalate texts ++ "]")
  -- A date is an object without own enumerable keys; 7b and 7d are the braces.
  | .date _ => pure ("\x7b" ++ ",".intercalate [] ++ "\x7d")
  | .object fields => do
    let entries ← stringifyFields fields
    let sorted := entries.insertionSort byKey
    pure ("\x7b" ++
      ",".intercalate (sorted.map fun entry => lexis.quote entry.1 ++ ":" ++ entry.2) ++ "\x7d")

-- `map` leaves a hole a hole, and `join` writes it as the empty text.
def stringifyItems : List (Option ScopeValue) → Except StringifyError (List String)
  | [] => pure []
  | none :: rest => do
    let texts ← stringifyItems rest
    pure ("" :: texts)
  | some item :: rest => do
    let text ← stableStringify item
    let texts ← stringifyItems rest
    pure (text :: texts)

def stringifyFields : List (JsString × ScopeValue) →
    Except StringifyError (List (JsString × String))
  | [] => pure []
  | (key, value) :: rest => do
    let text ← stableStringify value
    let entries ← stringifyFields rest
    pure ((key, text) :: entries)

end

def scopesEqual (a b : ScopeValue) : Except StringifyError Bool := do
  let left ← stableStringify lexis a
  let right ← stableStringify lexis b
  pure (left == right)

def isScopeChangeMaterial (approvedScope currentScope : ScopeValue) :
    Except StringifyError Bool := do
  let equal ← scopesEqual lexis approvedScope currentScope
  pure !equal

end Stringify

inductive ApprovalDecision
  | pending
  | approved
  | rejected
  | expired
  deriving DecidableEq

structure ApprovalRecordView where
  decision : ApprovalDecision
  exactScope : ScopeValue
  expiresAt : Option JsDate

/-- `a.getTime() <= b.getTime()`, which is false where one is invalid. -/
def JsDate.le (a b : JsDate) : Bool :=
  match a.time, b.time with
  | some s, some t => decide (s ≤ t)
  | _, _ => false

def approvalStillValid (lexis : JsonLexis) (approval : ApprovalRecordView)
    (currentScope : ScopeValue) (now : JsDate) : Except StringifyError Bool :=
  if approval.decision ≠ .approved then pure false
  else if approval.expiresAt.any fun expiresAt => expiresAt.le now then pure false
  else scopesEqual lexis approval.exactScope currentScope

end Donna
