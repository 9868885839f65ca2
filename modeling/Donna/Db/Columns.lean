import Donna.Js.Json
import Donna.Orchestrator.Adapters

/-! The column types of the database: what a statement stores of the values that it is given, and
which of them it refuses. -/

namespace Donna

open Js JsValue

/-- The `uuid` type of the database: the canonical text of the id that a text denotes, if it denotes
one.  Texts in other notations, as in upper case, denote ids too. -/
structure UuidType where
  read : String → Option String
  canonical : ∀ {text id}, read text = some id → read id = some id

/-- For examples, every text is an id. -/
def plainIds : UuidType where
  read := some
  canonical _ := rfl

/-- What a statement throws that the database refuses, with the code of the error. -/
def databaseError (code : String) : Thrown := .value (.object [("code", .string code)])

def invalidTextRepresentation : Thrown := databaseError "22P02"

def uuidColumn (uuid : UuidType) (text : String) : Except Thrown String :=
  match uuid.read text with
  | some id => pure id
  | none => throw invalidTextRepresentation

theorem uuidColumn_eq_ok {uuid : UuidType} {text id : String} :
    uuidColumn uuid text = .ok id ↔ uuid.read text = some id := by
  unfold uuidColumn
  cases uuid.read text <;> simp

/-- A nullable `uuid` column, absent or as the insert has it. -/
def nullableUuidColumn (uuid : UuidType) : Option JsValue → Except Thrown (Option String)
  | none | some .undefined | some .null => pure none
  | some (.string text) => some <$> uuidColumn uuid text
  | some _ => throw invalidTextRepresentation

/-- A text that the database can store: it has no character of code zero. -/
def Storable (text : String) : Prop := Char.ofNat 0 ∉ text.toList

instance (text : String) : Decidable (Storable text) := inferInstanceAs (Decidable (_ ∉ _))

def textColumn (text : String) : Except Thrown String :=
  if Storable text then pure text else throw (databaseError "22021")

/-- An enum column, with its default where the insert has `undefined`. -/
def enumColumn {α : Type} (all : List α) (name : α → String) (byDefault : α) (value : JsValue) :
    Except Thrown α :=
  match value with
  | .undefined => pure byDefault
  | .null => throw (databaseError "23502")
  | .string text =>
    match all.find? fun item => name item = text with
    | some item => pure item
    | none => throw invalidTextRepresentation
  | _ => throw invalidTextRepresentation

/-- A nullable `jsonb` column: the JSON of the value, and SQL's null for `null` and where the insert
leaves it out.  A value that has no JSON is refused.  The order of keys is left out. -/
def jsonbColumn : Option JsValue → Except Thrown (Option JsValue)
  | none | some .undefined | some .null => pure none
  | some (.function _) => throw (databaseError "UNDEFINED_VALUE")
  | some value => pure (some value.jsonClone)

end Donna
