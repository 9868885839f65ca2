import Donna.ControlPlane.Authentication
import Donna.ControlPlane.Membership

/-! The entrypoint: the configuration of the process, the schema and the services that it builds
from it, and the listener.  Each of these steps can end the process before it listens; what a
process that listens trusts is decided by the name of its environment and by what is configured. -/

namespace Donna

open Js

/-- What the steps of the entrypoint do with the values that they are given, and what they throw. -/
structure Boot where
  runDrizzleMigrations : String → Except Thrown Unit
  runMigrations : String → Except Thrown Unit
  createDatabase : String → Except Thrown Unit
  /-- `new URL(jwksUrl)`. -/
  parseUrl : String → Except Thrown Unit
  /-- `new SvixWebhookVerifier(secret)`. -/
  webhookVerifier : String → Except Thrown Unit
  /-- `app.listen` on the port that the variable names. -/
  listen : Option String → Except Thrown Unit

/-- Why a process does not listen: it refuses its configuration, or a step throws. -/
inductive StartupError
  | refused (message : String)
  | thrown (error : Thrown)

/-- What a process that refuses to start writes before it exits. -/
def refusalMessage (missing : List String) : String :=
  "Refusing to start in production: missing required configuration — " ++
    ", ".intercalate missing ++ ". Set these (see MANUAL-SETUP.md) or run with " ++
    "APP_ENV=development to use the local header shim."

/-- The error of `buildAuthenticator` for JWTs without a database. -/
def unresolvable : Thrown := .value (.object [
  ("name", .string "Error"),
  ("message", .string "JWT authentication requires a database for principal resolution.")])

section Steps

variable (boot : Boot)

/-- `buildAuthenticator`, as far as it can throw. -/
def Boot.buildAuthenticator (auth : AuthConfig) (databaseUrl : Option String) :
    Except Thrown Unit :=
  match auth with
  | .devShim => pure ()
  | .jwt jwt => if databaseUrl.isNone then throw unresolvable else boot.parseUrl jwt.jwksUrl

/-- The schema and the services of the configuration. -/
def Boot.buildDeps (config : StartupConfig) : Except Thrown Unit :=
  match config.databaseUrl with
  | none => boot.buildAuthenticator config.auth none
  | some url => do
    boot.runDrizzleMigrations url
    boot.runMigrations url
    boot.createDatabase url
    boot.buildAuthenticator config.auth (some url)
    match config.webhookSecret with
    | none => pure ()
    | some secret => boot.webhookVerifier secret

/-- What follows the configuration: the deps, and then the listener. -/
def Boot.listens (config : StartupConfig) (port : Option String) : Except Thrown Unit := do
  boot.buildDeps config
  boot.listen port

/-- The entrypoint up to the point where the process listens. -/
def startup (env : ProcessEnv) : Except StartupError StartupConfig :=
  match resolveStartupConfig env with
  | .refused _ missing => .error (.refused (refusalMessage missing))
  | .ok config =>
    match boot.listens config (env "PORT") with
    | .error error => .error (.thrown error)
    | .ok () => .ok config

end Steps

section Startup

variable {boot : Boot} {env : ProcessEnv} {config : StartupConfig}

theorem startup_eq_ok : startup boot env = .ok config ↔
    resolveStartupConfig env = .ok config ∧ boot.listens config (env "PORT") = .ok () := by
  unfold startup
  cases resolved : resolveStartupConfig env with
  | refused appEnv missing => simp
  | ok given =>
    rw [StartupResolution.ok.injEq]
    constructor
    · intro started
      dsimp only at started
      split at started
      · cases started
      · next booted =>
        have same : given = config := Except.ok.inj started
        exact ⟨same, same ▸ booted⟩
    · rintro ⟨rfl, booted⟩
      dsimp only
      rw [booted]

theorem startup_eq_refused {message : String} :
    startup boot env = .error (.refused message) ↔ ∃ appEnv missing,
      resolveStartupConfig env = .refused appEnv missing ∧ message = refusalMessage missing := by
  unfold startup
  cases resolved : resolveStartupConfig env with
  | refused appEnv missing =>
    simp only [Except.error.injEq, StartupError.refused.injEq, StartupResolution.refused.injEq]
    constructor
    · rintro same
      exact ⟨appEnv, missing, ⟨rfl, rfl⟩, same.symm⟩
    · rintro ⟨_, _, ⟨-, same⟩, hMessage⟩
      rw [hMessage, same]
  | ok given =>
    dsimp only
    split <;> simp

theorem productionConfig_of_started (started : startup boot env = .ok config)
    (production : config.appEnv = .production) : ProductionConfig env config := by
  obtain ⟨resolved, -⟩ := startup_eq_ok.mp started
  rcases resolveStartupConfig_cases resolved with ⟨-, complete, same⟩ | ⟨elsewhere, same⟩
  · rw [same]
    exact productionConfig_complete complete
  · rw [same, localConfig_appEnv] at production
    exact absurd production elsewhere

/-! ### What a process that listens trusts -/

/-- A request without a bearer token can be authenticated. -/
def ServesTokenless (auth : AuthConfig) : Prop :=
  ∃ jwtVerify db headers principal, bearerToken headers = none ∧
    authenticateWith auth jwtVerify db headers = .authenticated principal

/-- No token that the library accepts has a claim that stands for a second factor. -/
def NoFactor (jwtVerify : JwtVerify) : Prop :=
  ∀ token options claims, jwtVerify token options = .ok claims → ∀ name,
    (JsValue.object claims).own name ∉ [JsValue.boolean true, .string "true", .number (.finite 1)]

/-- A request can be authenticated although nobody has shown a second factor. -/
def ServesFactorless (auth : AuthConfig) : Prop :=
  ∃ jwtVerify db headers principal, NoFactor jwtVerify ∧
    authenticateWith auth jwtVerify db headers = .authenticated principal

/-- The principal of the examples, as the header shim reads it. -/
def shimPrincipal : PrincipalContext where
  userId := "jo"
  organizationId := "acme"
  role := .owner
  actorKind := .human
  teamIds := []
  projectIds := []

theorem devShim_trusts (jwtVerify : JwtVerify) (db : TenancyDatabase) :
    authenticateWith .devShim jwtVerify db (devHeaders shimPrincipal) =
      .authenticated shimPrincipal :=
  (devAuthenticator_devHeaders shimPrincipal).mpr (by simp [shimPrincipal])

theorem servesTokenless_iff {auth : AuthConfig} : ServesTokenless auth ↔ auth = .devShim := by
  cases auth with
  | devShim =>
    refine iff_of_true ?_ rfl
    exact ⟨fun _ _ => .error "", .empty, devHeaders shimPrincipal, shimPrincipal, rfl,
      devShim_trusts _ _⟩
  | jwt jwt =>
    refine iff_of_false ?_ (by simp)
    rintro ⟨jwtVerify, db, headers, principal, tokenless, trusted⟩
    obtain ⟨subject, ⟨token, -, hToken, -⟩, -⟩ := authenticateWith_authenticated.mp trusted
    rw [tokenless] at hToken
    cases hToken

/-- A library that accepts every token for Jo's, and without the second factor. -/
def namesJo : JwtVerify := fun _ _ => .ok [("sub", .string "user_jo")]

theorem namesJo_noFactor : NoFactor namesJo := by
  rintro token options claims accepted name
  rw [← Except.ok.inj accepted]
  by_cases sub : name = "sub"
  · subst sub
    simp [JsValue.own]
  · simp [JsValue.own, sub]

theorem servesFactorless_iff {auth : AuthConfig} : ServesFactorless auth ↔
    auth = .devShim ∨ ∃ jwt, auth = .jwt jwt ∧ jwt.requireMfa = false := by
  cases auth with
  | devShim =>
    refine iff_of_true ?_ (.inl rfl)
    exact ⟨namesJo, .empty, devHeaders shimPrincipal, shimPrincipal, namesJo_noFactor,
      devShim_trusts _ _⟩
  | jwt jwt =>
    simp only [reduceCtorEq, AuthConfig.jwt.injEq, exists_eq_left', false_or]
    constructor
    · rintro ⟨jwtVerify, db, headers, principal, noFactor, trusted⟩
      obtain ⟨subject, ⟨token, claims, -, accepted, -, -, shown⟩, -⟩ :=
        authenticateWith_authenticated.mp trusted
      by_contra required
      obtain ⟨factor, listed, hFactor⟩ :=
        mfaSatisfied_default rfl (shown (Bool.not_eq_false _ ▸ required))
      exact noFactor token _ claims accepted _ (hFactor ▸ listed)
    · intro optional
      have found : ∃ principal, resolve acmeTables "user_jo" = some principal := by
        rw [← Option.isSome_iff_exists]
        decide
      obtain ⟨principal, found⟩ := found
      refine ⟨namesJo, acmeTables, [("authorization", .string "Bearer jo.token")], principal,
        namesJo_noFactor, authenticateWith_authenticated.mpr ⟨"user_jo", ?_, found⟩⟩
      exact ⟨"jo.token", [("sub", .string "user_jo")], by decide, rfl, rfl, by decide,
        fun required => absurd (required.symm.trans optional) (by decide)⟩

/-! ### Startup fails closed -/

/-- Everything that production requires is there, and every step takes it. -/
inductive ProductionStart (boot : Boot) (env : ProcessEnv) : Prop
  | intro {url jwksUrl issuer audience secret}
      (hUrl : presentVar (env "DATABASE_URL") = some url)
      (hJwks : presentVar (env "AUTH_JWKS_URL") = some jwksUrl)
      (hIssuer : presentVar (env "AUTH_ISSUER") = some issuer)
      (hAudience : presentVar (env "AUTH_AUDIENCE") = some audience)
      (hSecret : presentVar (env "CLERK_WEBHOOK_SECRET") = some secret)
      (requireMfa : env "AUTH_REQUIRE_MFA" = some "true")
      (schema : boot.runDrizzleMigrations url = .ok () ∧ boot.runMigrations url = .ok ())
      (database : boot.createDatabase url = .ok ())
      (parsed : boot.parseUrl jwksUrl = .ok ())
      (verifier : boot.webhookVerifier secret = .ok ())
      (listening : boot.listen (env "PORT") = .ok ())

theorem listens_productionConfig {url jwksUrl secret : String} {port : Option String}
    (hUrl : env "DATABASE_URL" = some url) (hJwks : env "AUTH_JWKS_URL" = some jwksUrl)
    (hSecret : env "CLERK_WEBHOOK_SECRET" = some secret) :
    boot.listens (productionConfig env) port = .ok () ↔
      (boot.runDrizzleMigrations url = .ok () ∧ boot.runMigrations url = .ok ()) ∧
        boot.createDatabase url = .ok () ∧ boot.parseUrl jwksUrl = .ok () ∧
        boot.webhookVerifier secret = .ok () ∧ boot.listen port = .ok () := by
  simp only [Boot.listens, Boot.buildDeps, Boot.buildAuthenticator, productionConfig, hUrl, hJwks,
    hSecret, Option.getD_some, Option.isNone_some, Bool.false_eq_true, if_false, bind_eq_ok,
    Unique.exists_iff, PUnit.default_eq_unit, and_assoc]

theorem startup_production (production : resolveAppEnv env = .production) :
    (∃ config, startup boot env = .ok config) ↔ ProductionStart boot env := by
  constructor
  · rintro ⟨config, started⟩
    obtain ⟨resolved, booted⟩ := startup_eq_ok.mp started
    rcases resolveStartupConfig_cases resolved with ⟨-, complete, same⟩ | ⟨elsewhere, -⟩
    · obtain ⟨every, requireMfa⟩ := missingProductionVars_eq_nil.mp complete
      obtain ⟨url, hUrl⟩ := every "DATABASE_URL" (by decide)
      obtain ⟨jwksUrl, hJwks⟩ := every "AUTH_JWKS_URL" (by decide)
      obtain ⟨issuer, hIssuer⟩ := every "AUTH_ISSUER" (by decide)
      obtain ⟨audience, hAudience⟩ := every "AUTH_AUDIENCE" (by decide)
      obtain ⟨secret, hSecret⟩ := every "CLERK_WEBHOOK_SECRET" (by decide)
      rw [same, listens_productionConfig (presentVar_eq_some.mp hUrl).1
        (presentVar_eq_some.mp hJwks).1 (presentVar_eq_some.mp hSecret).1] at booted
      obtain ⟨schema, database, parsed, verifier, listening⟩ := booted
      exact .intro hUrl hJwks hIssuer hAudience hSecret requireMfa schema database parsed verifier
        listening
    · exact absurd production elsewhere
  · rintro ⟨hUrl, hJwks, hIssuer, hAudience, hSecret, requireMfa, schema, database, parsed,
      verifier, listening⟩
    have every : ∀ name ∈ requiredVars, ∃ text, presentVar (env name) = some text := by
      simp [requiredVars, hUrl, hJwks, hIssuer, hAudience, hSecret]
    refine ⟨productionConfig env, startup_eq_ok.mpr ⟨?_, ?_⟩⟩
    · rw [resolveStartupConfig_production production,
        if_pos (missingProductionVars_eq_nil.mpr ⟨every, requireMfa⟩)]
    · exact (listens_productionConfig (presentVar_eq_some.mp hUrl).1 (presentVar_eq_some.mp hJwks).1
        (presentVar_eq_some.mp hSecret).1).mpr ⟨schema, database, parsed, verifier, listening⟩

/-- The configuration of a started process. -/
theorem started_cases (started : startup boot env = .ok config) :
    (resolveAppEnv env = .production ∧ ProductionConfig env config) ∨
      (resolveAppEnv env ≠ .production ∧ config = localConfig env (resolveAppEnv env)) := by
  obtain ⟨resolved, -⟩ := startup_eq_ok.mp started
  rcases resolveStartupConfig_cases resolved with ⟨production, complete, same⟩ | elsewhere
  · rw [same]
    exact .inl ⟨production, productionConfig_complete complete⟩
  · exact .inr elsewhere

/-- What startup promises: a process listens in production exactly when all that is required is
there and works, a refusal says nothing of the values, and only a local process trusts a request
without a token or without a second factor, or runs without a database. -/
structure StartsClosed (boot : Boot) (env : ProcessEnv) : Prop where
  production : resolveAppEnv env = .production →
    ((∃ config, startup boot env = .ok config) ↔ ProductionStart boot env)
  refuses : (∃ message, startup boot env = .error (.refused message)) ↔
    resolveAppEnv env = .production ∧
      ((∃ name ∈ requiredVars, presentVar (env name) = none) ∨
        env "AUTH_REQUIRE_MFA" ≠ some "true")
  refusal : ∀ boot' env' message, SamePresence env env' →
    (startup boot env = .error (.refused message) ↔
      startup boot' env' = .error (.refused message))
  tokenless : ∀ config, startup boot env = .ok config → (ServesTokenless config.auth ↔
    resolveAppEnv env ≠ .production ∧
      (presentVar (env "DATABASE_URL") = none ∨ presentVar (env "AUTH_JWKS_URL") = none))
  factorless : ∀ config, startup boot env = .ok config → (ServesFactorless config.auth ↔
    resolveAppEnv env ≠ .production ∧
      (presentVar (env "DATABASE_URL") = none ∨ presentVar (env "AUTH_JWKS_URL") = none ∨
        env "AUTH_REQUIRE_MFA" ≠ some "true"))
  durable : ∀ config, startup boot env = .ok config → (config.databaseUrl = none ↔
    resolveAppEnv env ≠ .production ∧ presentVar (env "DATABASE_URL") = none)
  resolvable : ∀ config, resolveStartupConfig env = .ok config →
    ∀ jwt, config.auth = .jwt jwt → config.databaseUrl ≠ none

/-- What a process trusts follows from the name of its environment and from which variables are
present, and a process that lacks what production requires does not listen in production. -/
theorem startup_fails_closed (boot : Boot) (env : ProcessEnv) : StartsClosed boot env where
  production := startup_production
  refuses := by
    simp only [startup_eq_refused, resolveStartupConfig_eq_refused]
    rw [← not_missingProductionVars]
    constructor
    · rintro ⟨message, appEnv, missing, ⟨production, -, incomplete, -⟩, -⟩
      exact ⟨production, incomplete⟩
    · rintro ⟨production, incomplete⟩
      exact ⟨_, .production, _, ⟨production, rfl, incomplete, rfl⟩, rfl⟩
  refusal boot' env' message same := by
    rw [startup_eq_refused, startup_eq_refused]
    simp only [same.refused]
  tokenless config started := by
    rw [servesTokenless_iff]
    rcases started_cases started with ⟨production, configured⟩ | ⟨elsewhere, same⟩
    · obtain ⟨jwksUrl, issuer, audience, auth, -⟩ := configured.auth
      simp [production, auth]
    · rw [same]
      simp [localConfig, localAuth_devShim, elsewhere]
  factorless config started := by
    rw [servesFactorless_iff]
    rcases started_cases started with ⟨production, configured⟩ | ⟨elsewhere, same⟩
    · obtain ⟨jwksUrl, issuer, audience, auth, -⟩ := configured.auth
      simp [production, auth]
    · rw [same]
      simp [localConfig, localAuth_factorless, elsewhere]
  durable config started := by
    rcases started_cases started with ⟨production, configured⟩ | ⟨elsewhere, same⟩
    · obtain ⟨url, hUrl, -⟩ := configured.databaseUrl
      simp [production, hUrl]
    · rw [same]
      simp [localConfig, elsewhere]
  resolvable config resolved jwt auth := by
    rcases resolveStartupConfig_cases resolved with ⟨-, complete, same⟩ | ⟨-, same⟩
    · obtain ⟨url, hUrl, -⟩ := (productionConfig_complete complete).databaseUrl
      rw [same, hUrl]
      simp
    · rw [same] at auth ⊢
      intro absent
      have shim : localAuth env (presentVar (env "DATABASE_URL")) = .devShim :=
        localAuth_devShim.mpr (.inl absent)
      exact AuthConfig.noConfusion (shim.symm.trans auth)

end Startup

end Donna
