import Donna.Adapters.HttpRequests
import Donna.Js.Json

/-! The language on values without accessors, cycles and lone surrogates.  Its URL parser is that of
`Url.parse`; number formats, JSON texts and the URLs that do not start at a path stay open. -/

namespace Donna

open Js Operation

/-- The parts of the platform that the requests of the adapters do not fix. -/
structure WebPlatform where
  realm : Realm
  jsonText : JsValue → String
  /-- The properties of a string, one for each code unit. -/
  codeUnitEntries : String → List (String × JsValue)
  elsewhere : List Char → Url → Option Url
  setSearchParam : Url → String → String → Url

/-- The characters that `encodeURIComponent` keeps. -/
def uriUnescaped : List Char :=
  "ABCDEFGHIJKLMNOPQRSTUVWXYZabcdefghijklmnopqrstuvwxyz0123456789-_.!~*'()".toList

def isUriUnescaped (c : Char) : Bool := decide (c ∈ uriUnescaped)

def encodeURIComponent (text : String) : String :=
  String.ofList (PercentCoding.encode isUriUnescaped text.toList)

def LanguageError.typeError (error : TypeError) : LanguageError where
  error := .typeError error
  foreign _ _ := rfl

/-- The `TypeError` of the URL constructor. -/
def LanguageError.invalidUrl : LanguageError where
  error := .value (.object [
    ("name", .string "TypeError"),
    ("message", .string "Invalid URL")])
  foreign := by decide

/-- A computation on plain values, which leaves no trace in the world. -/
def ofPlain {α : Type} (value : Except TypeError α) : Operation Unit LanguageError α :=
  fun world => (value.mapError LanguageError.typeError).map fun result => (result, world)

/-- The enumerable own properties of a value. -/
def WebPlatform.ownEntries (platform : WebPlatform) : JsValue → List (String × JsValue)
  | .object fields => fields
  | .array items => items.zipIdx.map fun item => (toString item.2, item.1)
  | .string text => platform.codeUnitEntries text
  | _ => []

def WebPlatform.language (platform : WebPlatform) : Language Unit LanguageError JsValue Url where
  undefined := .undefined
  string := .string
  object := .object
  isUndefined := JsValue.isUndefined
  isNullish
    | .undefined | .null => true
    | _ => false
  isString value := value.asString.isSome
  strictEq := JsValue.strictEq
  get value key := ofPlain (value.get key)
  toText value := ofPlain (value.toStr platform.realm)
  interpolate value := ofPlain (value.toStr platform.realm)
  entries
    | .undefined | .null => throw (.typeError .notAnObject)
    | value => pure (platform.ownEntries value)
  spread value excluded :=
    pure ((platform.ownEntries value).filter fun field => decide (field.1 ∉ excluded))
  encodeURIComponent value := do
    let text ← ofPlain (value.toStr platform.realm)
    pure (encodeURIComponent text)
  stringify value :=
    pure (if value.unserialisable then .undefined else .string (platform.jsonText value))
  parseUrl value base := do
    let text ← ofPlain (value.toStr platform.realm)
    match Url.parse platform.elsewhere text base with
    | some url => pure url
    | none => throw .invalidUrl
  origin := Url.origin
  setSearchParam := platform.setSearchParam
  href := Url.href
  get_undefined _ _ := ⟨_, rfl⟩

theorem WebPlatform.read_object (platform : WebPlatform) (fields : List (String × JsValue))
    (key : String) :
    (platform.language.get (.object fields) key).thrown () =
      .ok ((fields.lookup key).getD .undefined, ()) := rfl

/-- A string that parses is no error of the URL constructor. -/
theorem WebPlatform.parseUrl_string (platform : WebPlatform) {text : String} {base url : Url}
    (parsed : Url.parse platform.elsewhere text base = some url) :
    platform.language.parseUrl (.string text) base () = .ok (url, ()) := by
  have read : ofPlain (JsValue.toStr platform.realm (.string text)) () = .ok (text, ()) := rfl
  refine (bind_of_ok read).trans ?_
  rw [parsed]
  rfl

/-- A path that parses to a URL of the origin, with no query of its own, resolves to that URL. -/
theorem WebPlatform.resolveUrl_of_parse (platform : WebPlatform)
    {http : HttpCapabilityOptions JsValue Url} {request : JsValue} {path : String} {target : Url}
    (read : (platform.language.get request "path").thrown () = .ok (.string path, ()))
    (query : (platform.language.get request "query").thrown () = .ok (.undefined, ()))
    (parsed : Url.parse platform.elsewhere path http.baseUrl = some target)
    (home : target.origin = http.baseUrl.origin) :
    resolveUrl platform.language http request () = .ok (target, ()) := by
  have made : (platform.language.parseUrl (.string path) http.baseUrl).thrown () =
      .ok (target, ()) := by
    rw [thrown, mapError, platform.parseUrl_string parsed]
    rfl
  rw [resolveUrl, bind_of_ok read]
  refine (bind_of_ok made).trans ?_
  have guarded : ¬ platform.language.origin target ≠ platform.language.origin http.baseUrl :=
    not_not.mpr home
  rw [if_neg guarded]
  exact (bind_of_ok query).trans rfl

theorem WebPlatform.spread_object (platform : WebPlatform) (fields : List (String × JsValue)) :
    platform.language.spread (.object fields) [] () = .ok (fields, ()) := by
  have all : fields.filter (fun field => decide (field.1 ∉ ([] : List String))) = fields := by simp
  show Except.ok (fields.filter (fun field => decide (field.1 ∉ ([] : List String))), ()) = _
  rw [all]

/-- A platform for examples, where the parts that stay open do nothing. -/
def WebPlatform.plain : WebPlatform where
  realm := .plain
  jsonText _ := ""
  codeUnitEntries _ := []
  elsewhere _ _ := none
  setSearchParam url _ _ := url

/-- `GHL_BASE_URL`. -/
def ghlBaseUrl : Url where
  scheme := "https"
  host := "services.leadconnectorhq.com"
  path := [""]

/-- An adapter without a default location. -/
def ghlOptions : GhlAdapterOptions Url where
  token := "pit-0"
  locationId := none
  baseUrl := ghlBaseUrl

end Donna
