import Donna.Orchestrator.WorkOrder

/-! `HttpCapabilityAdapter` as a run of the orchestrator sees it.  The adapter keeps the usage of
its last answered request in a field that `reportUsage` returns.  It assigns the field before it
checks the status of the response, so a request that is answered with an error status reports its
usage and is rejected; a request without an answer leaves the field as it was. -/

namespace Donna

open Js JsValue

structure HttpResponse where
  status : ℕ
  ok : Bool
  headers : List (String × String)
  body : JsValue

def HttpResponse.toJs (response : HttpResponse) : JsValue := .object [
  ("status", .number (.finite response.status)),
  ("ok", .boolean response.ok),
  ("headers", .object (response.headers.map fun header => (header.1, .string header.2))),
  ("body", response.body)]

/-- `HttpRequestError`: a non-2xx response. -/
def httpRequestError (response : HttpResponse) : JsValue := .object [
  ("name", .string "HttpRequestError"),
  ("message", .string ("HTTP " ++ toString response.status)),
  ("response", response.toJs)]

/-- Whether an error is an instance of `errorClass`, which its constructor writes to `name`. -/
def Thrown.isInstanceOf (errorClass : String) : Thrown → Bool
  | .value error => (error.own "name").asString = some errorClass
  | .typeError _ => false

/-- The class of a response's status. -/
def classifyStatus (status : JsValue) : ErrorClass :=
  match status with
  | .number s =>
    if s = .finite 429 then .rateLimit
    else if s = .finite 401 ∨ s = .finite 403 then .auth
    else if (JsNumber.finite 500).le s then .unavailable
    else if s = .finite 408 then .transient
    else .deterministic
  | _ => .deterministic

/-- An adapter registered under `id`, with what it meets: `exchange` is `execute` up to the parsed
response (the target URL, the request, the call of `fetch` and the reading of the body), and
`elapsed` is the time that a request takes. -/
structure HttpCapability where
  id : String
  estimateUsd : ℚ := 0
  exchange : History → Option JsValue → ExecutionContext → Except Thrown HttpResponse
  elapsed : History → ℚ

/-- The call got a response, so it assigned `lastUsage` before it returned or threw. -/
def isAnswered : Except Thrown Reply → Bool
  | .ok _ => true
  | .error error => error.isInstanceOf "HttpRequestError"

namespace HttpCapability

variable (http : HttpCapability)

def execute (history : History) (input : Option JsValue) (ctx : ExecutionContext) :
    Except Thrown JsValue := do
  let response ← http.exchange history input ctx
  if !response.ok then throw (.value (httpRequestError response)) else pure response.toJs

def classifyError (error : Thrown) : ErrorClass :=
  if error.isInstanceOf "HttpInvalidTargetError" then .deterministic
  else if error.isInstanceOf "HttpRequestError" then
    match error with
    | .value error => classifyStatus ((error.own "response").own "status")
    | .typeError _ => .transient
  else
    -- Transport failures are transient.
    .transient

/-- The field `lastUsage` after `action`, which came after `seen`. -/
def assign (seen : History) (last : Option AdapterUsage) (action : Action) : Option AdapterUsage :=
  match action with
  | .executed adapter reply =>
    if adapter = .capability http.id ∧ isAnswered reply then
      some { costUsd := http.estimateUsd, latencyMs := http.elapsed seen }
    else last
  | _ => last

def lastUsage (seen : History) (last : Option AdapterUsage) : History → Option AdapterUsage
  | [] => last
  | action :: rest => lastUsage (seen ++ [action]) (http.assign seen last action) rest

def reportUsage (history : History) : Option AdapterUsage := http.lastUsage [] none history

def adapter : CapabilityAdapter where
  estimate _ _ _ := .ok { costUsd := http.estimateUsd, latencyMs := 0, confidence := 1 / 2 }
  execute := http.execute
  reportUsage := http.reportUsage
  classifyError := classifyError

end HttpCapability

end Donna
