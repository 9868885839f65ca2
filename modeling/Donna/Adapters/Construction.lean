import Donna.Adapters.Inputs
import Donna.Orchestrator.Stopped

/-! Failures on the way to `fetch`.  The classifiers know the errors that the adapters make
themselves and take every other error for one of the transport.  So a request whose construction
fails in the language (a read of `undefined`, a path that does not parse, a cyclic body) is retried
on the next candidate, although it can never be sent. -/

namespace Donna

open Js Operation Async Async.Program

/-! ### What may not be retried -/

/-- In every run in which the call of a capability whose adapter classifies errors so is rejected
with the error, `executeWorkOrder` only announces that the order failed, and returns that. -/
def StopsRun (classify : Thrown → ErrorClass) (error : Thrown) : Prop :=
  ∀ (platform : Platform) (order : WorkOrder) (deps : OrchestratorDeps) (id : String)
    (adapter : CapabilityAdapter), deps.capabilityAdapter id = some adapter →
    adapter.classifyError = classify → ∀ history,
      StopsAt (.capability id) error (executeWorkOrder platform order deps history).1
        (executeWorkOrder platform order deps history).2

/-- The error is of a class that is not worth retrying. -/
def Final (classify : Thrown → ErrorClass) (error : Thrown) : Prop :=
  isRetryable (classify error) = false

instance (classify : Thrown → ErrorClass) (error : Thrown) : Decidable (Final classify error) :=
  inferInstanceAs (Decidable (_ = _))

/-- What the construction throws is not retryable, and stops the run. -/
def NeverRetried {ω α : Type} (classify : Thrown → ErrorClass) (construction : Operation ω Thrown α)
    (world : ω) : Prop :=
  ∀ error, construction world = .error error →
    Final classify error ∧ StopsRun classify error

/-- An error that is not retryable stops the run at the call that it rejected. -/
theorem stopsRun_of_final {classify : Thrown → ErrorClass} {error : Thrown}
    (final : Final classify error) : StopsRun classify error := by
  intro platform order deps id adapter wired classifies history
  have run : OrderRun platform order deps (executeWorkOrder platform order deps history).1
      (executeWorkOrder platform order deps history).2 := executeWorkOrder_run
  refine run.stopsAt ?_
  simp only [OrchestratorDeps.classifyError, wired, Option.map_some, Option.getD_some, classifies]
  exact final

theorem neverRetried_iff {ω α : Type} {classify : Thrown → ErrorClass}
    {construction : Operation ω Thrown α} {world : ω} :
    NeverRetried classify construction world ↔
      Ends (Final classify) construction world fun _ _ => True := by
  rw [ends_true_iff]
  constructor
  · intro never error thrown
    exact (never error thrown).1
  · intro ends error thrown
    exact ⟨ends error thrown, stopsRun_of_final (ends error thrown)⟩

/-! ### When a request can be constructed -/

namespace ValueSpace

variable {ν υ : Type} (values : ValueSpace ν υ)

/-- A query that is absent, or no `null` and has a text for each of its values. -/
def QueryFits (query : ν) : Prop :=
  values.isUndefined query = true ∨ values.isNullish query = false ∧
    ∀ key value, (key, value) ∈ values.own query →
      ∃ item units, value = .ok item ∧ values.display item = .ok units

/-- Headers of which each can be read. -/
def HeadersFit (headers : ν) : Prop := ∀ key error, (key, .error error) ∉ values.own headers

/-- A body that is not sent, is a string, or can be serialised. -/
def BodyFits (method body : ν) : Prop :=
  values.isUndefined body = true ∨ values.isNullish method = true ∨
    values.isText method "GET" = true ∨ values.isString body = true ∨
    Serializable values.kind body

section Http

variable (http : HttpCapabilityOptions ν υ)

/-- The path parses, and leaves the origin or comes with parts that fit. -/
def HttpConstructible (input : ν) : Prop :=
  ∃ path target, values.read input "path" = .ok path ∧
    values.resolved path http.baseUrl = .ok target ∧
    (values.origin target ≠ values.origin http.baseUrl ∨
      ∃ query method headers body, values.read input "query" = .ok query ∧
        values.read input "method" = .ok method ∧ values.read input "headers" = .ok headers ∧
        values.read input "body" = .ok body ∧ values.QueryFits query ∧
        values.HeadersFit headers ∧ values.BodyFits method body)

/-- A request for a path with these fields as its body: each can be serialised, unless the path
leaves the origin. -/
def Posts (path : String) (fields : List (String × ν)) : Prop :=
  ∃ target, values.parse path http.baseUrl = .ok target ∧
    (values.origin target ≠ values.origin http.baseUrl ∨
      ∀ key item, (key, item) ∈ fields → Serializable values.kind item)

end Http

section Ghl

variable (options : GhlAdapterOptions υ) (req : ν)

/-- The location of an operation: its own, or else the default one. -/
def location (own : ν) : ν :=
  values.language.orElse own (options.defaultLocationId values.language)

/-- Neither the operation nor the adapter has a location. -/
def Unlocated (own : ν) : Prop := values.isNullish own = true ∧ options.locationId = none

def UpsertFits : Prop :=
  ∃ contact own, values.read req "contact" = .ok contact ∧
    values.read contact "locationId" = .ok own ∧
    (values.Unlocated options own ∨ ∃ fields,
      (values.own contact).filter (fun property => decide (property.1 ∉ ["locationId"])) =
        fields.map (fun field => (field.1, .ok field.2)) ∧
      values.Posts (options.http values.language) "/contacts/upsert"
        (("locationId", values.location options own) :: fields))

/-- The contact id has a text without a lone surrogate, and the path with it parses. -/
def GetFits : Prop :=
  ∃ contactId encoded target, values.read req "contactId" = .ok contactId ∧
    values.encoded contactId = .ok encoded ∧
    values.parse ("/contacts/" ++ encoded) options.baseUrl = .ok target

def SearchFits : Prop :=
  ∃ own, values.read req "locationId" = .ok own ∧
    (values.Unlocated options own ∨ ∃ query limit, values.read req "query" = .ok query ∧
      values.read req "limit" = .ok limit ∧
      values.Posts (options.http values.language) "/contacts/search"
        [("locationId", values.location options own), ("query", query), ("pageLimit", limit)])

def MessageFits : Prop :=
  ∃ type contactId message subject html, values.read req "type" = .ok type ∧
    values.read req "contactId" = .ok contactId ∧ values.read req "message" = .ok message ∧
    values.read req "subject" = .ok subject ∧ values.read req "html" = .ok html ∧
    values.Posts (options.http values.language) "/conversations/messages"
      [("type", type), ("contactId", contactId), ("message", message), ("subject", subject),
        ("html", html)]

/-- The operation is one of the four, and its own parts fit. -/
def GhlConstructible : Prop :=
  ∃ op, values.read req "op" = .ok op ∧
    if values.isText op "contact.upsert" = true then values.UpsertFits options req
    else if values.isText op "contact.get" = true then values.GetFits options req
    else if values.isText op "contact.search" = true then values.SearchFits options req
    else values.isText op "message.send" = true ∧ values.MessageFits options req

end Ghl

end ValueSpace

/-! ### What the construction needs -/

/-- All properties can be read just where no read throws. -/
theorem exists_readAll {ν : Type} {properties : Properties ν} :
    (∃ fields, readAll properties = .ok fields) ↔
      ∀ key error, (key, .error error) ∉ properties := by
  constructor
  · rintro ⟨fields, read⟩ key error present
    rw [readAll_eq_ok.mp read] at present
    simp at present
  · intro readable
    induction properties with
    | nil => exact ⟨[], rfl⟩
    | cons property properties ih =>
      obtain ⟨fields, read⟩ := ih fun key error present =>
        readable key error (List.mem_cons_of_mem _ present)
      rcases property with ⟨key, error | value⟩
      · exact absurd List.mem_cons_self (readable key error)
      · refine ⟨(key, value) :: fields, readAll_eq_ok.mpr ?_⟩
        rw [readAll_eq_ok.mp read, List.map_cons]

section Specs

open ValueSpace

variable {ν υ : Type} {values : ValueSpace ν υ} {allowed : Thrown → Prop}
  (foreign : ∀ error : LanguageError, ¬ allowed error.error)

include foreign

theorem effectless_ends {α : Type} {value : Except LanguageError α} {after : α → Unit → Prop} :
    Ends allowed (effectless value).thrown () after ↔
      ∃ result, value = .ok result ∧ after result () :=
  (ends_mapError foreign).trans effectless_returns

section Http

variable {http : HttpCapabilityOptions ν υ} {input : ν} {rest : Prop}

/-- The loop over the query ends well where each parameter has a text. -/
theorem setQueryParams_ends (params : List (String × ν)) (target : υ) :
    Ends allowed (params.foldlM (setQueryParam values.language) target) () (fun _ _ => rest) ↔
      (∀ param ∈ params, ∃ units, values.display param.2 = .ok units) ∧ rest := by
  have pass : ∀ (target : υ) (param : String × ν) (after : Prop),
      Ends allowed (setQueryParam values.language target param) () (fun _ _ => after) ↔
        (∃ units, values.display param.2 = .ok units) ∧ after := by
    intro target param after
    rw [setQueryParam, ends_bind]
    refine (effectless_ends foreign).trans ?_
    cases values.display param.2 <;> simp [Functor.map, Except.map]
  induction params generalizing target with
  | nil => simp
  | cons param params ih =>
    rw [List.foldlM_cons, ends_bind]
    have later : (fun (target : υ) (world : Unit) => Ends allowed
        (params.foldlM (setQueryParam values.language) target) world fun _ _ => rest) =
        fun _ _ => (∀ param ∈ params, ∃ units, values.display param.2 = .ok units) ∧ rest := by
      funext target world
      exact propext (ih target)
    rw [later, pass, List.forall_mem_cons, and_assoc]

omit foreign in
/-- The entries of a query can be read, with a text for each. -/
theorem entries_iff (query : ν) :
    (∃ params, (if values.isNullish query = true then .error values.typeError
        else readAll (values.own query)) = .ok params ∧
      (∀ param ∈ params, ∃ units, values.display param.2 = .ok units) ∧ rest) ↔
    (values.isNullish query = false ∧ ∀ key value, (key, value) ∈ values.own query →
      ∃ item units, value = .ok item ∧ values.display item = .ok units) ∧ rest := by
  cases values.isNullish query with
  | true => simp
  | false =>
    simp only [Bool.false_eq_true, if_false, true_and]
    constructor
    · rintro ⟨params, read, texts, holds⟩
      refine ⟨fun key value present => ?_, holds⟩
      rw [readAll_eq_ok.mp read] at present
      obtain ⟨param, listed, same⟩ := List.mem_map.mp present
      obtain ⟨rfl, rfl⟩ := Prod.mk.inj same
      obtain ⟨units, display⟩ := texts param listed
      exact ⟨param.2, units, rfl, display⟩
    · rintro ⟨texts, holds⟩
      obtain ⟨params, read⟩ := exists_readAll.mpr fun key error present => by
        obtain ⟨item, units, same, -⟩ := texts key _ present
        cases same
      refine ⟨params, read, fun param listed => ?_, holds⟩
      have present : (param.1, Except.ok param.2) ∈ values.own query := by
        rw [readAll_eq_ok.mp read]
        exact List.mem_map_of_mem listed
      obtain ⟨item, units, same, display⟩ := texts _ _ present
      obtain rfl := Except.ok.inj same
      exact ⟨units, display⟩

theorem resolveUrl_ends (refused : ∀ path, allowed (httpInvalidTargetError path)) :
    Ends allowed (resolveUrl values.language http input) () (fun _ _ => rest) ↔
      ∃ path target, values.read input "path" = .ok path ∧
        values.resolved path http.baseUrl = .ok target ∧
        (values.origin target ≠ values.origin http.baseUrl ∨
          (∃ query, values.read input "query" = .ok query ∧ values.QueryFits query) ∧ rest) := by
  simp only [resolveUrl, ends_bind, ends_ite, ends_throw, ends_pure, refused]
  simp only [language_get, language_parseUrl, language_origin, language_interpolate,
    language_isUndefined, language_entries, effectless_ends foreign, setQueryParams_ends foreign,
    entries_iff]
  constructor
  · rintro ⟨path, read, target, parsed, holds⟩
    refine ⟨path, target, read, parsed, ?_⟩
    split at holds
    · next away => exact .inl away
    · obtain ⟨query, hQuery, fits⟩ := holds
      split at fits
      · next absent => exact .inr ⟨⟨query, hQuery, .inl absent⟩, fits⟩
      · obtain ⟨query', hQuery', fits, holds⟩ := fits
        obtain rfl := Except.ok.inj (hQuery.symm.trans hQuery')
        exact .inr ⟨⟨query, hQuery, .inr fits⟩, holds⟩
  · rintro ⟨path, target, read, parsed, holds⟩
    obtain ⟨units, converts, -⟩ := bind_eq_ok.mp parsed
    refine ⟨path, read, target, parsed, ?_⟩
    split
    · refine ⟨path, read, toWellFormed units, ?_, trivial⟩
      rw [converts]
      rfl
    · next home =>
      obtain ⟨⟨query, hQuery, fits⟩, holds⟩ := holds.resolve_left home
      refine ⟨query, hQuery, ?_⟩
      split
      · exact holds
      · next present => exact ⟨query, hQuery, fits.resolve_left present, holds⟩

theorem requestBody_ends {given : ν} :
    Ends allowed (requestBody values.language input
        (values.language.orElse given (values.language.string "GET"))) () (fun _ _ => True) ↔
      ∃ body, values.read input "body" = .ok body ∧ values.BodyFits given body := by
  simp only [requestBody, ends_bind, ends_ite, ends_pure]
  simp only [language_get, language_isUndefined, language_isString, language_stringify,
    language_strictEq, isText_orElse, effectless_ends foreign, and_true]
  refine exists_congr fun body => and_congr_right fun read => ?_
  -- The property reads as the same value each time.
  simp only [read, Except.ok.injEq, exists_eq_left', exists_eq', values.stringify_returns,
    Bool.or_eq_true, ValueSpace.BodyFits]
  cases values.isUndefined body <;> cases values.isNullish given <;>
    cases values.isText given "GET" <;> cases values.isString body <;> simp

theorem fetchCall_ends (refused : ∀ path, allowed (httpInvalidTargetError path))
    {ctx : ExecutionContext} :
    Ends allowed (fetchCall values.language http input ctx) () (fun _ _ => True) ↔
      values.HttpConstructible http input := by
  simp only [fetchCall, ends_bind, ends_pure]
  simp only [language_get, language_spread, effectless_ends foreign, requestBody_ends foreign,
    resolveUrl_ends foreign refused]
  have headers : ∀ (headers : ν) (rest : Prop), (∃ fields, readAll ((values.own headers).filter
      fun property => decide (property.1 ∉ ([] : List String))) = .ok fields ∧ rest) ↔
        values.HeadersFit headers ∧ rest := by
    intro headers rest
    simp [ValueSpace.HeadersFit, exists_readAll]
  simp only [headers]
  refine exists_congr fun path => exists_congr fun target => and_congr_right fun _ =>
    and_congr_right fun _ => or_congr_right ?_
  constructor
  · rintro ⟨⟨query, hQuery, fits⟩, method, hMethod, headers, hHeaders, fit, body, hBody, sent⟩
    exact ⟨query, method, headers, body, hQuery, hMethod, hHeaders, hBody, fits, fit, sent⟩
  · rintro ⟨query, method, headers, body, hQuery, hMethod, hHeaders, hBody, fits, fit, sent⟩
    exact ⟨⟨query, hQuery, fits⟩, method, hMethod, headers, hHeaders, fit, body, hBody, sent⟩

end Http

end Specs

/-! ### The requests of the CRM adapter -/

section Requests

open ValueSpace

variable {ν υ : Type} {values : ValueSpace ν υ} {http : HttpCapabilityOptions ν υ}

theorem httpConstructible_post {path : String} {fields : List (String × ν)} :
    values.HttpConstructible http (postRequest values.language path
        (values.language.object fields)) ↔ values.Posts http path fields := by
  let body := values.object fields
  let request := values.object [("path", values.string path),
    ("method", values.string "POST"), ("body", body)]
  have readPath : values.read request "path" = .ok (values.string path) := by
    simp [request, read_object]
  have readQuery : values.read request "query" = .ok values.undefined := by
    simp [request, read_object]
  have readMethod : values.read request "method" = .ok (values.string "POST") := by
    simp [request, read_object]
  have readHeaders : values.read request "headers" = .ok values.undefined := by
    simp [request, read_object]
  have readBody : values.read request "body" = .ok body := by simp [request, read_object]
  have noQuery : values.QueryFits values.undefined :=
    .inl (by simp [ValueSpace.isUndefined, values.kind_undefined])
  have noHeaders : values.HeadersFit values.undefined := by
    simp [ValueSpace.HeadersFit, own, values.kind_undefined]
  have sent : values.BodyFits (values.string "POST") body ↔
      ∀ key item, (key, item) ∈ fields → Serializable values.kind item := by
    have post : ¬ utf16 "POST" = utf16 "GET" := by decide
    simp [BodyFits, body, ValueSpace.isUndefined, isNullish, isText, ValueSpace.isString,
      values.kind_object, values.kind_string, post, serializable_object]
  show values.HttpConstructible http request ↔ _
  simp only [HttpConstructible, Posts, readPath, readQuery, readMethod, readHeaders, readBody,
    Except.ok.injEq, exists_and_left, exists_eq_left', resolved_string, noQuery, noHeaders, sent,
    true_and]

theorem httpConstructible_get {encoded : String} :
    values.HttpConstructible http (getRequest values.language encoded) ↔
      ∃ target, values.parse ("/contacts/" ++ encoded) http.baseUrl = .ok target := by
  let request := values.object [("path", values.string ("/contacts/" ++ encoded)),
    ("method", values.string "GET")]
  have readPath : values.read request "path" =
      .ok (values.string ("/contacts/" ++ encoded)) := by
    simp [request, read_object]
  have readMethod : values.read request "method" = .ok (values.string "GET") := by
    simp [request, read_object]
  have absent : ∀ key ∈ ["query", "headers", "body"],
      values.read request key = .ok values.undefined := by
    simp [request, read_object]
  have noQuery : values.QueryFits values.undefined :=
    .inl (by simp [ValueSpace.isUndefined, values.kind_undefined])
  have noHeaders : values.HeadersFit values.undefined := by
    simp [ValueSpace.HeadersFit, own, values.kind_undefined]
  have noBody : values.BodyFits (values.string "GET") values.undefined :=
    .inl (by simp [ValueSpace.isUndefined, values.kind_undefined])
  show values.HttpConstructible http request ↔ _
  simp [HttpConstructible, readPath, readMethod, absent, resolved_string, noQuery, noHeaders,
    noBody]

/-- A field that is `undefined` can be left out. -/
theorem posts_defined {path : String} (before : List (String × ν)) {fields : List (String × ν)} :
    values.Posts http path (before ++ values.language.defined fields) ↔
      values.Posts http path (before ++ fields) := by
  have missing : ∀ item, values.isUndefined item = true → Serializable values.kind item := by
    intro item absent
    refine .leaf ?_
    unfold ValueSpace.isUndefined at absent
    split at absent
    · next kind => rw [kind]; rfl
    · cases absent
  refine exists_congr fun target => and_congr_right fun _ => or_congr_right ?_
  simp only [List.mem_append, Language.defined, List.mem_filter, language_isUndefined,
    Bool.not_eq_true']
  constructor
  · rintro kept key item (first | listed)
    · exact kept key item (.inl first)
    · cases absent : values.isUndefined item with
      | true => exact missing item absent
      | false => exact kept key item (.inr ⟨listed, absent⟩)
  · rintro all key item (first | ⟨listed, -⟩)
    · exact all key item (.inl first)
    · exact all key item (.inr listed)

theorem isUndefined_location {options : GhlAdapterOptions υ} {own : ν} :
    values.isUndefined (values.location options own) = true ↔ values.Unlocated options own := by
  have undefined : values.isUndefined values.undefined = true := by
    simp [ValueSpace.isUndefined, values.kind_undefined]
  have string : ∀ text, values.isUndefined (values.string text) = false := by
    simp [ValueSpace.isUndefined, values.kind_string]
  have nullish : values.isUndefined own = true → values.isNullish own = true := by
    unfold ValueSpace.isUndefined isNullish
    split <;> simp_all
  show values.isUndefined (if values.isNullish own = true then
    (options.locationId.map values.language.string).getD values.undefined else own) = true ↔ _
  unfold Unlocated
  split
  next missing =>
    cases options.locationId with
    | none => simpa [missing] using undefined
    | some id => exact iff_of_false (ne_true_of_eq_false (string id)) (by simp)
  next present => simp [present, mt nullish present]

end Requests

section Operations

open ValueSpace

variable {ν υ : Type} {values : ValueSpace ν υ} {allowed : Thrown → Prop}
  {options : GhlAdapterOptions υ} {req : ν}

theorem upsertRequest_constructible {own : ν} {fields : List (String × ν)} :
    values.HttpConstructible (options.http values.language)
        (upsertRequest values.language (values.location options own) fields) ↔
      values.Posts (options.http values.language) "/contacts/upsert"
        (("locationId", values.location options own) :: fields) := by
  rw [upsertRequest, httpConstructible_post]
  exact posts_defined [("locationId", values.location options own)]

theorem searchRequest_constructible {location query limit : ν} :
    values.HttpConstructible (options.http values.language)
        (searchRequest values.language location query limit) ↔
      values.Posts (options.http values.language) "/contacts/search"
        [("locationId", location), ("query", query), ("pageLimit", limit)] := by
  rw [searchRequest, httpConstructible_post, ← List.nil_append (Language.defined _ _),
    posts_defined, List.nil_append]

theorem messageRequest_constructible {type contactId message subject html : ν} :
    values.HttpConstructible (options.http values.language)
        (messageRequest values.language type contactId message subject html) ↔
      values.Posts (options.http values.language) "/conversations/messages"
        [("type", type), ("contactId", contactId), ("message", message), ("subject", subject),
          ("html", html)] := by
  rw [messageRequest, httpConstructible_post, ← List.nil_append (Language.defined _ _),
    posts_defined, List.nil_append]

/-- An operation that the CRM adapter does not know leaves no request to read. -/
theorem not_httpConstructible_undefined {http : HttpCapabilityOptions ν υ} :
    ¬ values.HttpConstructible http values.undefined := by
  rintro ⟨path, target, read, -⟩
  simp [ValueSpace.read, values.kind_undefined] at read

/-- Without a location the adapter refuses; otherwise the rest has to fit. -/
theorem located_iff {own : ν} {rest : Prop} :
    (if values.isUndefined (values.location options own) = true then True else rest) ↔
      values.Unlocated options own ∨ rest := by
  rw [← isUndefined_location]
  cases values.isUndefined (values.location options own) <;> simp

/-- The construction of a CRM request ends well where its operation fits. -/
theorem ghlFetchCall_ends (foreign : ∀ error : LanguageError, ¬ allowed error.error)
    (refused : ∀ path, allowed (httpInvalidTargetError path))
    (unlocated : ∀ op, allowed (ghlConfigError op)) {ctx : ExecutionContext} :
    Ends allowed (ghlFetchCall values.language options req ctx) () (fun _ _ => True) ↔
      values.GhlConstructible options req := by
  simp only [ghlFetchCall, toHttpRequest, ends_bind, ends_ite, ends_throw, ends_pure, unlocated,
    fetchCall_ends foreign refused]
  simp only [language_get, language_strictEq, language_isUndefined, language_spread,
    language_encodeURIComponent, effectless_ends foreign, ← location.eq_1, located_iff,
    upsertRequest_constructible, searchRequest_constructible, messageRequest_constructible,
    httpConstructible_get]
  refine exists_congr fun op => and_congr_right fun _ => ?_
  split
  · constructor
    · rintro ⟨contact, hContact, own, hOwn, missing | ⟨contact', hContact', _, _, fits⟩⟩
      · exact ⟨contact, own, hContact, hOwn, .inl missing⟩
      · obtain rfl := Except.ok.inj (hContact.symm.trans hContact')
        obtain ⟨fields, read, posts⟩ := fits
        exact ⟨contact, own, hContact, hOwn, .inr ⟨fields, readAll_eq_ok.mp read, posts⟩⟩
    · rintro ⟨contact, own, hContact, hOwn, fits⟩
      refine ⟨contact, hContact, own, hOwn, fits.imp_right ?_⟩
      rintro ⟨fields, read, posts⟩
      exact ⟨contact, hContact, own, hOwn, fields, readAll_eq_ok.mpr read, posts⟩
  split
  · simp only [GetFits, exists_and_left]
    rfl
  split
  · simp only [SearchFits, exists_and_left]
  split
  · next send => simp only [MessageFits, send, exists_and_left, true_and]
  · next unknown => exact iff_of_false not_httpConstructible_undefined fun h => unknown h.1

end Operations

/-! ### The classifiers -/

theorem classifyError_foreign (error : LanguageError) :
    ¬ Final HttpCapability.classifyError error.error := by
  have target := error.foreign "HttpInvalidTargetError" (by simp [adapterErrors])
  have response := error.foreign "HttpRequestError" (by simp [adapterErrors])
  simp [Final, HttpCapability.classifyError, target, response, isRetryable]

theorem ghlClassifyError_foreign (error : LanguageError) :
    ¬ Final ghlClassifyError error.error := by
  have config := error.foreign "GhlConfigError" (by simp [adapterErrors])
  simpa [Final, ghlClassifyError, config] using classifyError_foreign error

theorem classifyError_invalidTarget (path : String) :
    Final HttpCapability.classifyError (httpInvalidTargetError path) := by
  have deterministic : HttpCapability.classifyError (httpInvalidTargetError path) =
      .deterministic := rfl
  rw [Final, deterministic]
  rfl

theorem ghlClassifyError_invalidTarget (path : String) :
    Final ghlClassifyError (httpInvalidTargetError path) := by
  have inner : ghlClassifyError (httpInvalidTargetError path) =
      HttpCapability.classifyError (httpInvalidTargetError path) := rfl
  rw [Final, inner]
  exact classifyError_invalidTarget path

theorem ghlClassifyError_config (op : String) : Final ghlClassifyError (ghlConfigError op) := by
  have deterministic : ghlClassifyError (ghlConfigError op) = .deterministic := rfl
  rw [Final, deterministic]
  rfl


/-! ### Whatever the values do -/

/-- What the HTTP adapter throws of its own before `fetch`. -/
def HttpRefusal (error : Thrown) : Prop := ∃ path, error = httpInvalidTargetError path

/-- What the CRM adapter throws of its own before `fetch`. -/
def GhlRefusal (error : Thrown) : Prop := HttpRefusal error ∨ ∃ op, error = ghlConfigError op

/-- An error of the language, or one of the adapter's own. -/
def Known (refusal : Thrown → Prop) (error : Thrown) : Prop :=
  (∃ given : LanguageError, error = given.error) ∨ refusal error

section Known

variable {ω ν υ : Type} (js : Language ω LanguageError ν υ) {refusal : Thrown → Prop}

theorem throwsOnly_thrown {α : Type} (operation : Operation ω LanguageError α) :
    ThrowsOnly (Known refusal) operation.thrown :=
  throwsOnly_mapError (fun error => .inl ⟨error, rfl⟩) operation

theorem resolveUrl_throws (refused : ∀ path, refusal (httpInvalidTargetError path))
    (http : HttpCapabilityOptions ν υ) (input : ν) :
    ThrowsOnly (Known refusal) (resolveUrl js http input) := by
  refine (throwsOnly_thrown _).bind fun path => (throwsOnly_thrown _).bind fun target => .ite ?_ ?_
  · refine (throwsOnly_thrown _).bind fun path => (throwsOnly_thrown _).bind fun text => ?_
    exact throwsOnly_throw (.inr (refused text))
  · refine (throwsOnly_thrown _).bind fun query => .ite (throwsOnly_pure target) ?_
    refine (throwsOnly_thrown _).bind fun query => (throwsOnly_thrown _).bind fun params => ?_
    exact throwsOnly_foldlM (fun target param => (throwsOnly_thrown _).bind fun text =>
      throwsOnly_pure _) params target

theorem requestBody_throws (input method : ν) :
    ThrowsOnly (Known refusal) (requestBody js input method) := by
  refine (throwsOnly_thrown _).bind fun body => .ite (throwsOnly_pure _) ?_
  refine (throwsOnly_thrown _).bind fun body => .ite ?_ ?_
  · exact (throwsOnly_thrown _).bind fun text => throwsOnly_pure _
  · refine (throwsOnly_thrown _).bind fun body => (throwsOnly_thrown _).bind fun text => ?_
    exact throwsOnly_pure _

theorem fetchCall_throws (refused : ∀ path, refusal (httpInvalidTargetError path))
    (http : HttpCapabilityOptions ν υ) (input : ν) (ctx : ExecutionContext) :
    ThrowsOnly (Known refusal) (fetchCall js http input ctx) := by
  refine (resolveUrl_throws js refused http input).bind fun target => ?_
  refine (throwsOnly_thrown _).bind fun given => (throwsOnly_thrown _).bind fun headers => ?_
  refine (throwsOnly_thrown _).bind fun own => (requestBody_throws js input _).bind fun body => ?_
  exact throwsOnly_pure _

theorem toHttpRequest_throws (unlocated : ∀ op, refusal (ghlConfigError op))
    (options : GhlAdapterOptions υ) (req : ν) :
    ThrowsOnly (Known refusal) (toHttpRequest js options req) := by
  refine (throwsOnly_thrown _).bind fun op =>
    .ite ?upsert (.ite ?get (.ite ?search (.ite ?send ?_)))
  case upsert =>
    refine (throwsOnly_thrown _).bind fun contact => (throwsOnly_thrown _).bind fun own => ?_
    refine .ite (throwsOnly_throw (.inr (unlocated _))) ?_
    refine (throwsOnly_thrown _).bind fun contact => (throwsOnly_thrown _).bind fun _ => ?_
    exact (throwsOnly_thrown _).bind fun fields => throwsOnly_pure _
  case get =>
    refine (throwsOnly_thrown _).bind fun contactId => (throwsOnly_thrown _).bind fun encoded => ?_
    exact throwsOnly_pure _
  case search =>
    refine (throwsOnly_thrown _).bind fun own => ?_
    refine .ite (throwsOnly_throw (.inr (unlocated _))) ?_
    refine (throwsOnly_thrown _).bind fun query => (throwsOnly_thrown _).bind fun limit => ?_
    exact throwsOnly_pure _
  case send =>
    refine (throwsOnly_thrown _).bind fun type => (throwsOnly_thrown _).bind fun contactId => ?_
    refine (throwsOnly_thrown _).bind fun message => (throwsOnly_thrown _).bind fun subject => ?_
    exact (throwsOnly_thrown _).bind fun html => throwsOnly_pure _
  exact throwsOnly_pure _

end Known

/-- Where a classifier takes the adapter's own errors, and no other known one, for final, nothing is
retried just where nothing else is thrown. -/
theorem neverRetried_iff_refuses {ω α : Type} {classify : Thrown → ErrorClass}
    {refusal : Thrown → Prop} {construction : Operation ω Thrown α} {world : ω}
    (known : ThrowsOnly (Known refusal) construction)
    (foreign : ∀ error : LanguageError, ¬ Final classify error.error)
    (final : ∀ error, refusal error → Final classify error) :
    NeverRetried classify construction world ↔
      ∀ error, construction world = .error error → refusal error := by
  rw [neverRetried_iff, ends_true_iff]
  refine forall₂_congr fun error thrown => ⟨fun h => ?_, final error⟩
  rcases known world error thrown with ⟨given, rfl⟩ | own
  · exact absurd h (foreign given)
  · exact own

end Donna
