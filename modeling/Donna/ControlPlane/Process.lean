import Donna.ControlPlane.DirectoryRuns
import Donna.ControlPlane.Startup

/-! A process of the control plane that serves the webhook of the identity provider and the routes
of the API beside each other.  In production a request acts for nobody whom a signed event has not
granted access, and no header but the credentials has a say. -/

namespace Donna

open Js Tables TenancyDatabase Machine

/-! ### The webhook -/

/-- The headers that the signature is read from. -/
def svixHeaders (headers : Headers) : List (String × String) :=
  ["svix-id", "svix-timestamp", "svix-signature"].map fun key =>
    (key, (firstString (header headers key)).getD "")

/-- What the signature library throws: that a request is not signed, or anything else. -/
inductive SvixError
  | verification
  | other (error : Thrown)

/-- `Webhook.verify` at one moment, for a signing secret. -/
abbrev SvixVerify := String → String → List (String × String) → Except SvixError JsValue

/-- What a handler throws, which the framework answers with status 500. -/
inductive HandlerError
  | thrown (error : Thrown)
  | statementRefused

/-- A request to the webhook, with the text that the parser of JSON bodies kept. -/
structure WebhookRequest where
  headers : Headers
  rawBody : Option String

/-- `POST /webhooks/clerk`. -/
def clerkWebhook (secret : String) (svix : SvixVerify) (draws : ProvisioningDraws)
    (request : WebhookRequest) (db : TenancyDatabase) :
    Except HandlerError Response × TenancyDatabase :=
  match svix secret (request.rawBody.getD "") (svixHeaders request.headers) with
  | .error .verification => (.ok (errorResponse 401 "invalid_signature"), db)
  | .error (.other error) => (.error (.thrown error), db)
  | .ok verified =>
    match parseClerkEvent verified with
    | .error error => (.ok (errorResponse 400 error.message), db)
    | .ok event =>
      match handle draws db event with
      | (.ok handled, after) => (.ok ⟨200, .object [("handled", .boolean handled)]⟩, after)
      | (.error (.payload error), after) => (.ok (errorResponse 400 error.message), after)
      | (.error .statementRefused, after) => (.error .statementRefused, after)

/-- The event of a request that is signed and has the shape of one. -/
def signedEvent (secret : String) (svix : SvixVerify) (request : WebhookRequest) :
    Option ClerkEvent :=
  match svix secret (request.rawBody.getD "") (svixHeaders request.headers) with
  | .error _ => none
  | .ok verified => (parseClerkEvent verified).toOption

/-! ### The process -/

structure ProcessState (σ : Type) where
  tenancy : TenancyDatabase
  services : σ

/-- A request, with what the platform draws and the libraries answer at its moment. -/
inductive HttpCall
  | webhook (draws : ProvisioningDraws) (svix : SvixVerify) (request : WebhookRequest)
  | api (draws : Draws) (jwtVerify : JwtVerify) (headers : Headers) (route : Route)

/-- How the framework answers a route that is not registered. -/
def webhookNotFound : Response := ⟨404, .object [
  ("message", .string "Route POST:/webhooks/clerk not found"),
  ("error", .string "Not Found"),
  ("statusCode", .number (.finite 404))]⟩

section Process

variable {σ : Type} (realm : Realm) (deps : TenancyDatabase → Draws → ServerDeps σ)
  (config : StartupConfig)

/-- One request to a process that started with `config`. -/
def serveCall (state : ProcessState σ) : HttpCall → Except HandlerError Response × ProcessState σ
  | .webhook draws svix request =>
    match config.webhookSecret with
    | none => (.ok webhookNotFound, state)
    | some secret =>
      let (outcome, tenancy) := clerkWebhook secret svix draws request state.tenancy
      (outcome, { state with tenancy := tenancy })
  | .api draws jwtVerify headers route =>
    let auth := authenticateWith config.auth jwtVerify state.tenancy headers
    let (outcome, services) := answer realm (deps state.tenancy draws) auth route state.services
    (outcome.mapError .thrown, { state with services := services })

end Process

section Runs

variable {σ : Type} {realm : Realm} {deps : TenancyDatabase → Draws → ServerDeps σ}
  {config : StartupConfig} {state : ProcessState σ}

/-- A webhook request changes the tables as the event that it delivers does. -/
theorem clerkWebhook_tables (secret : String) (svix : SvixVerify) (draws : ProvisioningDraws)
    (request : WebhookRequest) (db : TenancyDatabase) :
    (clerkWebhook secret svix draws request db).2 =
      final provision db ((signedEvent secret svix request).map (draws, ·)).toList := by
  unfold clerkWebhook signedEvent
  cases svix secret (request.rawBody.getD "") (svixHeaders request.headers) with
  | error error => cases error <;> rfl
  | ok verified =>
    dsimp only
    cases parseClerkEvent verified with
    | error error => rfl
    | ok event =>
      have here : final provision db [(draws, event)] = (handle draws db event).2 := rfl
      rw [Except.toOption, Option.map_some, Option.toList_some, here]
      dsimp only
      split <;> next found => rw [found]

/-- The event that one request delivers. -/
def delivery (config : StartupConfig) : HttpCall → Option (ProvisioningDraws × ClerkEvent)
  | .webhook draws svix request => config.webhookSecret.bind fun secret =>
    (signedEvent secret svix request).map (draws, ·)
  | .api _ _ _ _ => none

theorem serveCall_tenancy (call : HttpCall) : (serveCall realm deps config state call).2.tenancy =
    final provision state.tenancy (delivery config call).toList := by
  cases call with
  | webhook draws svix request =>
    simp only [serveCall, delivery]
    cases config.webhookSecret with
    | none => rfl
    | some secret => exact clerkWebhook_tables secret svix draws request state.tenancy
  | api draws jwtVerify headers route => rfl

/-- The tables of a process are those of the events that were delivered to it. -/
theorem final_tenancy (history : List HttpCall) :
    (final (serveCall realm deps config) state history).tenancy =
      final provision state.tenancy (history.filterMap (delivery config)) := by
  induction history generalizing state with
  | nil => rfl
  | cons call rest ih =>
    rw [final, ih, serveCall_tenancy, ← final_append, List.filterMap_cons]
    cases delivery config call <;> rfl

end Runs

/-! ### Production -/

/-- The request proves its subject as production asks: under the issuer and the audience of the
environment, and with the second factor. -/
def ProvesInProduction (env : ProcessEnv) (jwtVerify : JwtVerify) (headers : Headers)
    (subject : String) : Prop :=
  ∃ token payload jwksUrl issuer audience, bearerToken headers = some token ∧
    env "AUTH_JWKS_URL" = some jwksUrl ∧ env "AUTH_ISSUER" = some issuer ∧
    env "AUTH_AUDIENCE" = some audience ∧
    jwtVerify token ⟨jwksUrl, some issuer, some audience⟩ = .ok payload ∧
    ((JsValue.object payload).own "sub").asString = some subject ∧ subject ≠ "" ∧
    ∃ factor ∈ [JsValue.boolean true, .string "true", .number (.finite 1)],
      (JsValue.object payload).own ((env "AUTH_MFA_CLAIM").getD "mfa") = factor

section Production

variable {env : ProcessEnv} {config : StartupConfig} {jwtVerify : JwtVerify} {headers : Headers}
  {subject : String}

theorem ProductionConfig.proves (production : ProductionConfig env config) {jwt : JwtAuthConfig}
    (auth : config.auth = .jwt jwt) (proves : Proves jwt jwtVerify headers subject) :
    ProvesInProduction env jwtVerify headers subject := by
  obtain ⟨jwksUrl, issuer, audience, wired, hJwks, hIssuer, hAudience, -⟩ := production.auth
  obtain rfl := AuthConfig.jwt.inj (auth.symm.trans wired)
  obtain ⟨token, payload, hToken, passed, hSub, given, factor⟩ := proves
  exact ⟨token, payload, jwksUrl, issuer, audience, hToken, hJwks, hIssuer, hAudience, passed, hSub,
    given, mfaSatisfied_default rfl (factor rfl)⟩

end Production

/-- The request is refused, and nothing has changed. -/
def RefusedUnchanged {σ : Type} (state : ProcessState σ)
    (result : Except HandlerError Response × ProcessState σ) : Prop :=
  ∃ refusal ∈ jwtRefusals, result = (.ok (errorResponse refusal.1 refusal.2), state)

/-- What a route does for a principal. -/
def actsFor {σ : Type} (realm : Realm) (deps : TenancyDatabase → Draws → ServerDeps σ)
    (state : ProcessState σ) (draws : Draws) (principal : PrincipalContext) (route : Route) :
    Except HandlerError Response × ProcessState σ :=
  let (outcome, services) := answer realm (deps state.tenancy draws) (.authenticated principal)
    route state.services
  (outcome.mapError .thrown, { state with services := services })

/-- However signed events and requests interleave in a production process, a request is refused and
changes nothing, or it has proved a subject with a second factor, and acts for the principal of that
subject: in the organization and with the role that a delivered event granted it and none since
withdrew. -/
theorem production_access {σ : Type} (realm : Realm)
    (deps : TenancyDatabase → Draws → ServerDeps σ) (boot : Boot) (env : ProcessEnv)
    (config : StartupConfig) (started : startup boot env = .ok config)
    (production : config.appEnv = .production) (services : σ) (history : List HttpCall)
    (state : ProcessState σ)
    (reached : state = final (serveCall realm deps config) ⟨.empty, services⟩ history)
    (draws : Draws) (jwtVerify : JwtVerify) (headers : Headers) (route : Route) :
    RefusedUnchanged state
        (serveCall realm deps config state (.api draws jwtVerify headers route)) ∨
      ∃ subject principal clerkOrgId, ProvesInProduction env jwtVerify headers subject ∧
        resolve state.tenancy subject = some principal ∧
        state.tenancy.clerkOrgOf principal.organizationId = some clerkOrgId ∧
        Since (·.Grants subject clerkOrgId principal.role) (·.Withdraws subject clerkOrgId)
          (acceptedCalls .empty (history.filterMap (delivery config))) ∧
        serveCall realm deps config state (.api draws jwtVerify headers route) =
          actsFor realm deps state draws principal route := by
  have configured := productionConfig_of_started started production
  obtain ⟨jwksUrl, issuer, audience, auth, -⟩ := configured.auth
  simp only [serveCall, auth]
  cases trusted : authenticateWith (.jwt ⟨jwksUrl, some issuer, some audience, true,
      env "AUTH_MFA_CLAIM"⟩) jwtVerify state.tenancy headers with
  | refused status error =>
    refine .inl ⟨(status, error), authenticateWith_refused trusted, ?_⟩
    rfl
  | authenticated principal =>
    obtain ⟨subject, proves, found⟩ := authenticateWith_authenticated.mp trusted
    have tenancy : state.tenancy =
        final provision .empty (history.filterMap (delivery config)) := by
      rw [reached, final_tenancy]
    have granted := (resolve_granted (history.filterMap (delivery config)) subject) principal
      (tenancy ▸ found)
    obtain ⟨clerkOrgId, inOrg, since⟩ := granted
    exact .inr ⟨subject, principal, clerkOrgId, configured.proves auth proves, found,
      tenancy ▸ inOrg, since, rfl⟩

/-- Requests with the same parsed body and the same kept text that differ in headers which are no
credentials. -/
inductive SameCredentials : HttpCall → HttpCall → Prop
  | webhook (draws : ProvisioningDraws) (svix : SvixVerify) {request request' : WebhookRequest}
      (body : request.rawBody = request'.rawBody)
      (signature : svixHeaders request.headers = svixHeaders request'.headers) :
      SameCredentials (.webhook draws svix request) (.webhook draws svix request')
  | api (draws : Draws) (jwtVerify : JwtVerify) (route : Route) {headers headers' : Headers}
      (authorization : header headers "authorization" = header headers' "authorization") :
      SameCredentials (.api draws jwtVerify headers route) (.api draws jwtVerify headers' route)

theorem serveCall_congr {σ : Type} {realm : Realm}
    {deps : TenancyDatabase → Draws → ServerDeps σ} {config : StartupConfig} {jwt : JwtAuthConfig}
    (auth : config.auth = .jwt jwt) (state : ProcessState σ) {call call' : HttpCall}
    (same : SameCredentials call call') :
    serveCall realm deps config state call = serveCall realm deps config state call' := by
  cases same with
  | webhook draws svix body signature =>
    simp only [serveCall]
    cases config.webhookSecret with
    | none => rfl
    | some secret => simp only [clerkWebhook, body, signature]
  | api draws jwtVerify route authorization =>
    simp only [serveCall, auth, authenticateWith_congr authorization]

/-- In production the identity headers of the local shim, and all headers but the credentials, make
no difference to any answer or to the state of any history.  The calls have the same parsed body and
the same kept text, which the content type decides. -/
theorem production_headers {σ : Type} (realm : Realm)
    (deps : TenancyDatabase → Draws → ServerDeps σ) (boot : Boot) (env : ProcessEnv)
    (config : StartupConfig) (started : startup boot env = .ok config)
    (production : config.appEnv = .production) (start : ProcessState σ)
    (calls calls' : List HttpCall) (same : List.Forall₂ SameCredentials calls calls') :
    (visits (serveCall realm deps config) start calls).map (·.output) =
        (visits (serveCall realm deps config) start calls').map (·.output) ∧
      final (serveCall realm deps config) start calls =
        final (serveCall realm deps config) start calls' := by
  obtain ⟨jwksUrl, issuer, audience, auth, -⟩ :=
    (productionConfig_of_started started production).auth
  have alike : ∀ state call call', SameCredentials call call' →
      serveCall realm deps config state call = serveCall realm deps config state call' :=
    fun state _ _ credentials => serveCall_congr auth state credentials
  exact run_congr alike same

/-! ### A production process -/

def productionEnv : ProcessEnv := fun name => [
  ("DATABASE_URL", "postgres://db/donna"),
  ("AUTH_JWKS_URL", "https://id.example/jwks"),
  ("AUTH_ISSUER", "https://id.example"),
  ("AUTH_AUDIENCE", "donna"),
  ("AUTH_REQUIRE_MFA", "true"),
  ("CLERK_WEBHOOK_SECRET", "whsec_1")].lookup name

/-- Every step succeeds. -/
def readyBoot : Boot where
  runDrizzleMigrations _ := pure ()
  runMigrations _ := pure ()
  createDatabase _ := pure ()
  parseUrl _ := pure ()
  webhookVerifier _ := pure ()
  listen _ := pure ()

theorem productionEnv_starts :
    startup readyBoot productionEnv = .ok (productionConfig productionEnv) := by
  refine startup_eq_ok.mpr ⟨?_, rfl⟩
  rw [resolveStartupConfig_production (by decide), if_pos (by decide)]

/-- A library that takes every token for Jo's, with the second factor. -/
def trustsJo : JwtVerify := fun _ _ =>
  .ok [("sub", .string "user_jo"), ("mfa", .boolean true)]

/-- A library that takes every body for the event that Jo joined Acme. -/
def signsJoins : SvixVerify := fun _ _ _ => .ok (.object [
  ("type", .string (joins acmeMember).type),
  ("data", .object (joins acmeMember).data)])

def deliversJoins : HttpCall := .webhook firstDraws signsJoins ⟨[], some ""⟩

def joDraws : Draws where
  recordId := "1"
  event := { eventId := "event-1", correlationId := "correlation-1", now := 0 }
  jobId := "1"
  now := 0

def joBearer : Headers := [("authorization", .string "Bearer jo.token")]

theorem production_access_jo :
    let deps := fun _ draws => inMemoryDeps draws
    let config := productionConfig productionEnv
    let state := final (serveCall Realm.plain deps config) ⟨.empty, {}⟩ [deliversJoins]
    let call := HttpCall.api joDraws trustsJo joBearer (.getObjective "1")
    RefusedUnchanged state (serveCall Realm.plain deps config state call) ∨
      ∃ subject principal clerkOrgId,
        ProvesInProduction productionEnv trustsJo joBearer subject ∧
        resolve state.tenancy subject = some principal ∧
        state.tenancy.clerkOrgOf principal.organizationId = some clerkOrgId ∧
        Since (·.Grants subject clerkOrgId principal.role) (·.Withdraws subject clerkOrgId)
          (acceptedCalls .empty ([deliversJoins].filterMap (delivery config))) ∧
        serveCall Realm.plain deps config state call =
          actsFor Realm.plain deps state joDraws principal (.getObjective "1") :=
  production_access Realm.plain (fun _ draws => inMemoryDeps draws) readyBoot productionEnv
    (productionConfig productionEnv) productionEnv_starts rfl {} [deliversJoins] _ rfl
    joDraws trustsJo joBearer (.getObjective "1")

/-- Jo with the headers of the local shim, which claim the owner of another tenant. -/
def joClaims : Headers := ("x-donna-org-id", .string "globex") ::
  ("x-donna-user-id", .string "eve") :: ("x-donna-role", .string "owner") :: joBearer

theorem production_headers_jo :
    let deps := fun _ draws => inMemoryDeps draws
    let config := productionConfig productionEnv
    let call := HttpCall.api joDraws trustsJo joBearer (.getObjective "1")
    let call' := HttpCall.api joDraws trustsJo joClaims (.getObjective "1")
    (visits (serveCall Realm.plain deps config) ⟨acmeTables, {}⟩ [call]).map (·.output) =
      (visits (serveCall Realm.plain deps config) ⟨acmeTables, {}⟩ [call']).map (·.output) :=
  (production_headers Realm.plain (fun _ draws => inMemoryDeps draws) readyBoot productionEnv
    (productionConfig productionEnv) productionEnv_starts rfl ⟨acmeTables, {}⟩ _ _
    (.cons (.api joDraws trustsJo (.getObjective "1") rfl) .nil)).1

end Donna
