import Donna.Base.UrlPath
import Donna.Js.Language
import Donna.Js.OrderedMap
import Donna.Orchestrator.HttpAdapter

/-! From an input to the call of `fetch`: `HttpCapabilityAdapter.execute` up to its `fetchImpl`, and
`toHttpRequest`, which shapes a CRM operation into an HTTP request.  The input comes from a work
order and nothing has checked it, so each step that reads or converts it is an operation of the
language. -/

namespace Donna

open Js Operation

/-- The errors that the adapters make themselves. -/
def adapterErrors : List String := ["HttpInvalidTargetError", "HttpRequestError", "GhlConfigError"]

/-- What an operation of the language throws: an error of none of the adapters' classes. -/
structure LanguageError where
  error : Thrown
  foreign : ∀ errorClass ∈ adapterErrors, error.isInstanceOf errorClass = false

/-- An operation of the language, inside the code of an adapter. -/
def Js.Operation.thrown {ω α : Type} (operation : Operation ω LanguageError α) :
    Operation ω Thrown α :=
  operation.mapError LanguageError.error

/-- What `execute` hands to `fetchImpl`. -/
structure FetchCall (ν : Type) where
  url : String
  method : ν
  headers : OrderedMap String ν
  body : Option ν

/-- What a request sends: nothing, its own text, or the text that it is serialised to. -/
inductive SentBody (ν : Type)
  | absent
  | asIs (text : ν)
  | serialized (text : ν)

def SentBody.isSerialized {ν : Type} : SentBody ν → Bool
  | .serialized _ => true
  | _ => false

/-! ### Headers -/

section Headers

variable {ν : Type}

/-- `{ ...defaults, ...own }`. -/
def mergeHeaders (defaults : OrderedMap String ν) (own : List (String × ν)) :
    OrderedMap String ν :=
  own.foldl (fun headers header => headers.set header.1 header.2) defaults

/-- The merged headers, with a content type for a serialised body unless one is there. -/
def typedHeaders (text : String → ν) (isNullish : ν → Bool) (defaults : OrderedMap String ν)
    (own : List (String × ν)) (serialized : Bool) : OrderedMap String ν :=
  let merged := mergeHeaders defaults own
  if serialized && (merged.get "content-type").all isNullish then
    merged.set "content-type" (text "application/json")
  else merged

/-- The headers of a request: the defaults, over them its own, and over these what `execute` adds.
`text` is the value of a literal. -/
def requestHeaders (text : String → ν) (isNullish : ν → Bool) (defaults : OrderedMap String ν)
    (own : List (String × ν)) (serialized : Bool) (idempotencyKey : Option String) :
    OrderedMap String ν :=
  let headers := typedHeaders text isNullish defaults own serialized
  match idempotencyKey with
  | none => headers
  | some key => headers.set "idempotency-key" (text key)

end Headers

/-! ### The HTTP adapter -/

/-- The options that a request depends on; the constructor has parsed the base URL. -/
structure HttpCapabilityOptions (ν υ : Type) where
  baseUrl : υ
  defaultHeaders : OrderedMap String ν

def httpInvalidTargetError (path : String) : Thrown :=
  .value (.object [
    ("name", .string "HttpInvalidTargetError"),
    ("message", .string ("request path \"" ++ path ++ "\" escapes the adapter's base origin"))])

section Requests

variable {ω ν υ : Type} (js : Language ω LanguageError ν υ)

section Http

variable (http : HttpCapabilityOptions ν υ) (input : ν)

/-- The pass of the loop over `input.query`. -/
def setQueryParam (target : υ) (param : String × ν) : Operation ω Thrown υ := do
  let text ← (js.toText param.2).thrown
  pure (js.setSearchParam target param.1 text)

def resolveUrl : Operation ω Thrown υ := do
  let path ← (js.get input "path").thrown
  let target ← (js.parseUrl path http.baseUrl).thrown
  if js.origin target ≠ js.origin http.baseUrl then
    let path ← (js.get input "path").thrown
    let text ← (js.interpolate path).thrown
    throw (httpInvalidTargetError text)
  else
    let query ← (js.get input "query").thrown
    if js.isUndefined query then
      pure target
    else
      let query ← (js.get input "query").thrown
      let params ← (js.entries query).thrown
      params.foldlM (setQueryParam js) target

/-- The body that a request with this method sends. -/
def requestBody (method : ν) : Operation ω Thrown (SentBody ν) := do
  let body ← (js.get input "body").thrown
  if js.isUndefined body || js.strictEq method (js.string "GET") then
    pure .absent
  else
    let body ← (js.get input "body").thrown
    if js.isString body then
      let text ← (js.get input "body").thrown
      pure (.asIs text)
    else
      let body ← (js.get input "body").thrown
      let text ← (js.stringify body).thrown
      pure (.serialized text)

/-- `body` is a property of the call unless it is `undefined`. -/
def SentBody.sent : SentBody ν → Option ν
  | .absent => none
  | .asIs text | .serialized text => if js.isUndefined text then none else some text

/-- `HttpCapabilityAdapter.execute` up to the call of `fetchImpl`. -/
def fetchCall (ctx : ExecutionContext) : Operation ω Thrown (FetchCall ν) := do
  let target ← resolveUrl js http input
  let given ← (js.get input "method").thrown
  let method := js.orElse given (js.string "GET")
  let headers ← (js.get input "headers").thrown
  let own ← (js.spread headers []).thrown
  let body ← requestBody js input method
  pure {
    url := js.href target
    method := method
    headers := requestHeaders js.string js.isNullish http.defaultHeaders own body.isSerialized
      ctx.idempotencyKey
    body := body.sent js }

end Http

/-! ### The CRM adapter -/

/-- `GhlAdapterOptions`, with the base URL parsed. -/
structure GhlAdapterOptions (υ : Type) where
  token : String
  locationId : Option String
  baseUrl : υ
  apiVersion : String := "2021-07-28"

def GhlAdapterOptions.http (options : GhlAdapterOptions υ) : HttpCapabilityOptions ν υ where
  baseUrl := options.baseUrl
  defaultHeaders := ((OrderedMap.empty.set "authorization"
    (js.string ("Bearer " ++ options.token))).set "version"
    (js.string options.apiVersion)).set "accept" (js.string "application/json")

def ghlConfigError (op : String) : Thrown :=
  .value (.object [
    ("name", .string "GhlConfigError"),
    ("message", .string (op ++ " requires a locationId"))])

def postRequest (path : String) (body : ν) : ν := js.object [
  ("path", js.string path),
  ("method", js.string "POST"),
  ("body", body)]

def upsertRequest (locationId : ν) (fields : List (String × ν)) : ν :=
  postRequest js "/contacts/upsert" (js.object (("locationId", locationId) :: js.defined fields))

def getRequest (contactId : String) : ν := js.object [
  ("path", js.string ("/contacts/" ++ contactId)),
  ("method", js.string "GET")]

def searchRequest (locationId query limit : ν) : ν :=
  postRequest js "/contacts/search" (js.object (js.defined [
    ("locationId", locationId), ("query", query), ("pageLimit", limit)]))

def messageRequest (type contactId message subject html : ν) : ν :=
  postRequest js "/conversations/messages" (js.object (js.defined [
    ("type", type), ("contactId", contactId), ("message", message), ("subject", subject),
    ("html", html)]))

section Ghl

variable (options : GhlAdapterOptions υ) (req : ν)

def GhlAdapterOptions.defaultLocationId : ν :=
  (options.locationId.map js.string).getD js.undefined

/-- `toHttpRequest`; an operation that it does not know leaves the request `undefined`. -/
def toHttpRequest : Operation ω Thrown ν := do
  let op ← (js.get req "op").thrown
  if js.strictEq op (js.string "contact.upsert") then
    let contact ← (js.get req "contact").thrown
    let own ← (js.get contact "locationId").thrown
    let locationId := js.orElse own (options.defaultLocationId js)
    if js.isUndefined locationId then
      throw (ghlConfigError "contact.upsert")
    else
      let contact ← (js.get req "contact").thrown
      -- The pattern reads the property that it leaves out.
      let _ignore ← (js.get contact "locationId").thrown
      let fields ← (js.spread contact ["locationId"]).thrown
      pure (upsertRequest js locationId fields)
  else if js.strictEq op (js.string "contact.get") then
    let contactId ← (js.get req "contactId").thrown
    let encoded ← (js.encodeURIComponent contactId).thrown
    pure (getRequest js encoded)
  else if js.strictEq op (js.string "contact.search") then
    let own ← (js.get req "locationId").thrown
    let locationId := js.orElse own (options.defaultLocationId js)
    if js.isUndefined locationId then
      throw (ghlConfigError "contact.search")
    else
      let query ← (js.get req "query").thrown
      let limit ← (js.get req "limit").thrown
      pure (searchRequest js locationId query limit)
  else if js.strictEq op (js.string "message.send") then
    let type ← (js.get req "type").thrown
    let contactId ← (js.get req "contactId").thrown
    let message ← (js.get req "message").thrown
    let subject ← (js.get req "subject").thrown
    let html ← (js.get req "html").thrown
    pure (messageRequest js type contactId message subject html)
  else
    pure js.undefined

/-- `GhlCapabilityAdapter.execute` up to the call of `fetchImpl`. -/
def ghlFetchCall (ctx : ExecutionContext) : Operation ω Thrown (FetchCall ν) := do
  let request ← toHttpRequest js options req
  fetchCall js (options.http js) request ctx

end Ghl

end Requests

/-- `GhlCapabilityAdapter.classifyError`. -/
def ghlClassifyError (error : Thrown) : ErrorClass :=
  if error.isInstanceOf "GhlConfigError" then .deterministic else HttpCapability.classifyError error

end Donna
