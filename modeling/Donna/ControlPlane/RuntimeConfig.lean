import Mathlib.Data.List.Basic
import Donna.Js.Value

/-! The configuration that a process of the control plane starts with, or the refusal to start. -/

namespace Donna

open Js

inductive AppEnv
  | production
  | development
  | test
  deriving DecidableEq

/-- The environment of a process: the value of each variable that is set. -/
abbrev ProcessEnv := String → Option String

/-- `s.toLowerCase()`, for comparison with the names below: no character outside of ASCII becomes
one of their letters. -/
def toLowerCase (s : String) : String := String.ofList (s.toList.map Char.toLower)

def resolveAppEnv (env : ProcessEnv) : AppEnv :=
  let raw := toLowerCase (trim ((env "APP_ENV" <|> env "NODE_ENV").getD ""))
  if raw = "development" ∨ raw = "dev" then .development
  else if raw = "test" then .test
  else .production

/-- JWT verification inputs.  Present whenever auth is `jwt`. -/
structure JwtAuthConfig where
  jwksUrl : String
  issuer : Option String
  audience : Option String
  requireMfa : Bool
  mfaClaim : Option String
  deriving DecidableEq

inductive AuthConfig
  | jwt (config : JwtAuthConfig)
  | devShim
  deriving DecidableEq

structure StartupConfig where
  appEnv : AppEnv
  databaseUrl : Option String
  auth : AuthConfig
  webhookSecret : Option String
  deriving DecidableEq

inductive StartupResolution
  | ok (config : StartupConfig)
  | refused (appEnv : AppEnv) (missing : List String)
  deriving DecidableEq

/-- `present`: the value of a variable that is set to a text which is not empty. -/
def presentVar (value : Option String) : Option String := value.filter (· ≠ "")

/-- The variables that production requires by their presence alone. -/
def requiredVars : List String :=
  ["DATABASE_URL", "AUTH_JWKS_URL", "AUTH_ISSUER", "AUTH_AUDIENCE", "CLERK_WEBHOOK_SECRET"]

def missingProductionVars (env : ProcessEnv) : List String :=
  requiredVars.filter (fun name => (presentVar (env name)).isNone) ++
    if env "AUTH_REQUIRE_MFA" = some "true" then [] else ["AUTH_REQUIRE_MFA (must be \"true\")"]

def productionConfig (env : ProcessEnv) : StartupConfig where
  appEnv := .production
  databaseUrl := env "DATABASE_URL"
  auth := .jwt {
    jwksUrl := (env "AUTH_JWKS_URL").getD ""
    issuer := env "AUTH_ISSUER"
    audience := env "AUTH_AUDIENCE"
    requireMfa := true
    mfaClaim := env "AUTH_MFA_CLAIM" }
  webhookSecret := env "CLERK_WEBHOOK_SECRET"

/-- Elsewhere durable and with JWT when configured, else with the header shim. -/
def localAuth (env : ProcessEnv) (databaseUrl : Option String) : AuthConfig :=
  match presentVar (env "AUTH_JWKS_URL"), databaseUrl with
  | some jwksUrl, some _ => .jwt {
    jwksUrl := jwksUrl
    issuer := env "AUTH_ISSUER"
    audience := env "AUTH_AUDIENCE"
    requireMfa := env "AUTH_REQUIRE_MFA" = some "true"
    mfaClaim := env "AUTH_MFA_CLAIM" }
  | _, _ => .devShim

def localConfig (env : ProcessEnv) (appEnv : AppEnv) : StartupConfig where
  appEnv := appEnv
  databaseUrl := presentVar (env "DATABASE_URL")
  auth := localAuth env (presentVar (env "DATABASE_URL"))
  webhookSecret := presentVar (env "CLERK_WEBHOOK_SECRET")

@[simp] theorem localConfig_appEnv (env : ProcessEnv) (appEnv : AppEnv) :
    (localConfig env appEnv).appEnv = appEnv := rfl

/-- Decide how the process should start. -/
def resolveStartupConfig (env : ProcessEnv) : StartupResolution :=
  match resolveAppEnv env with
  | .production =>
    let missing := missingProductionVars env
    if missing = [] then .ok (productionConfig env) else .refused .production missing
  | appEnv => .ok (localConfig env appEnv)

section Config

variable {env env' : ProcessEnv} {config : StartupConfig}

theorem presentVar_eq_some {value : Option String} {text : String} :
    presentVar value = some text ↔ value = some text ∧ text ≠ "" := by
  simp [presentVar]

theorem missingProductionVars_eq_nil : missingProductionVars env = [] ↔
    (∀ name ∈ requiredVars, ∃ text, presentVar (env name) = some text) ∧
      env "AUTH_REQUIRE_MFA" = some "true" := by
  rw [missingProductionVars, List.append_eq_nil_iff, List.filter_eq_nil_iff]
  refine and_congr (forall₂_congr fun name _ => ?_) ?_
  · rw [Bool.not_eq_true, Option.isNone_eq_false_iff, Option.isSome_iff_exists]
  · split <;> simp [*]

theorem not_missingProductionVars : missingProductionVars env ≠ [] ↔
    (∃ name ∈ requiredVars, presentVar (env name) = none) ∨
      env "AUTH_REQUIRE_MFA" ≠ some "true" := by
  rw [ne_eq, missingProductionVars_eq_nil, not_and_or]
  simp only [not_forall, exists_prop, ← Option.isSome_iff_exists, Option.not_isSome_iff_eq_none]

/-- What a process that started in production runs with. -/
structure ProductionConfig (env : ProcessEnv) (config : StartupConfig) : Prop where
  databaseUrl : ∃ url, config.databaseUrl = some url ∧ env "DATABASE_URL" = some url ∧ url ≠ ""
  auth : ∃ jwksUrl issuer audience,
    config.auth = .jwt ⟨jwksUrl, some issuer, some audience, true, env "AUTH_MFA_CLAIM"⟩ ∧
    env "AUTH_JWKS_URL" = some jwksUrl ∧ env "AUTH_ISSUER" = some issuer ∧
    env "AUTH_AUDIENCE" = some audience ∧ jwksUrl ≠ "" ∧ issuer ≠ "" ∧ audience ≠ ""
  webhookSecret : ∃ secret, config.webhookSecret = some secret ∧
    env "CLERK_WEBHOOK_SECRET" = some secret ∧ secret ≠ ""

theorem resolveStartupConfig_production (production : resolveAppEnv env = .production) :
    resolveStartupConfig env = if missingProductionVars env = [] then .ok (productionConfig env)
      else .refused .production (missingProductionVars env) := by
  rw [resolveStartupConfig, production]

/-- Outside of production there is always a configuration. -/
theorem resolveStartupConfig_local (elsewhere : resolveAppEnv env ≠ .production) :
    resolveStartupConfig env = .ok (localConfig env (resolveAppEnv env)) := by
  rw [resolveStartupConfig]
  cases found : resolveAppEnv env with
  | production => exact absurd found elsewhere
  | development => rfl
  | test => rfl

theorem productionConfig_complete (complete : missingProductionVars env = []) :
    ProductionConfig env (productionConfig env) := by
  obtain ⟨every, -⟩ := missingProductionVars_eq_nil.mp complete
  have given : ∀ name ∈ requiredVars, ∃ text, env name = some text ∧ text ≠ "" :=
    fun name listed => (every name listed).imp fun _ => presentVar_eq_some.mp
  obtain ⟨url, hUrl, urlGiven⟩ := given "DATABASE_URL" (by decide)
  obtain ⟨jwksUrl, hJwks, jwksGiven⟩ := given "AUTH_JWKS_URL" (by decide)
  obtain ⟨issuer, hIssuer, issuerGiven⟩ := given "AUTH_ISSUER" (by decide)
  obtain ⟨audience, hAudience, audienceGiven⟩ := given "AUTH_AUDIENCE" (by decide)
  obtain ⟨secret, hSecret, secretGiven⟩ := given "CLERK_WEBHOOK_SECRET" (by decide)
  have auth : (productionConfig env).auth =
      .jwt ⟨jwksUrl, some issuer, some audience, true, env "AUTH_MFA_CLAIM"⟩ := by
    simp [productionConfig, hJwks, hIssuer, hAudience]
  exact ⟨⟨url, hUrl, hUrl, urlGiven⟩, ⟨jwksUrl, issuer, audience, auth, hJwks, hIssuer, hAudience,
    jwksGiven, issuerGiven, audienceGiven⟩, ⟨secret, hSecret, hSecret, secretGiven⟩⟩

/-- A configuration is that of production with nothing missing, or that of a local environment. -/
theorem resolveStartupConfig_cases (resolved : resolveStartupConfig env = .ok config) :
    (resolveAppEnv env = .production ∧ missingProductionVars env = [] ∧
        config = productionConfig env) ∨
      (resolveAppEnv env ≠ .production ∧ config = localConfig env (resolveAppEnv env)) := by
  by_cases production : resolveAppEnv env = .production
  · rw [resolveStartupConfig_production production] at resolved
    split at resolved
    · next complete =>
      exact .inl ⟨production, complete, (StartupResolution.ok.inj resolved).symm⟩
    · exact StartupResolution.noConfusion resolved
  · rw [resolveStartupConfig_local production] at resolved
    exact .inr ⟨production, (StartupResolution.ok.inj resolved).symm⟩

theorem localAuth_devShim {databaseUrl : Option String} : localAuth env databaseUrl = .devShim ↔
    databaseUrl = none ∨ presentVar (env "AUTH_JWKS_URL") = none := by
  unfold localAuth
  cases presentVar (env "AUTH_JWKS_URL") <;> cases databaseUrl <;> simp

/-- Where the second factor is not asked for. -/
theorem localAuth_factorless {databaseUrl : Option String} :
    (localAuth env databaseUrl = .devShim ∨
        ∃ jwt, localAuth env databaseUrl = .jwt jwt ∧ jwt.requireMfa = false) ↔
      databaseUrl = none ∨ presentVar (env "AUTH_JWKS_URL") = none ∨
        env "AUTH_REQUIRE_MFA" ≠ some "true" := by
  unfold localAuth
  cases presentVar (env "AUTH_JWKS_URL") <;> cases databaseUrl <;> simp

/-- Environments that set the same of the required variables, to whatever values. -/
structure SamePresence (env env' : ProcessEnv) : Prop where
  appEnv : env "APP_ENV" = env' "APP_ENV"
  nodeEnv : env "NODE_ENV" = env' "NODE_ENV"
  required : ∀ name ∈ requiredVars,
    (presentVar (env name)).isNone = (presentVar (env' name)).isNone
  requireMfa : env "AUTH_REQUIRE_MFA" = some "true" ↔ env' "AUTH_REQUIRE_MFA" = some "true"

theorem SamePresence.missing (same : SamePresence env env') :
    missingProductionVars env = missingProductionVars env' := by
  simp only [missingProductionVars, same.requireMfa]
  rw [List.filter_congr fun name listed => same.required name listed]

theorem resolveStartupConfig_eq_refused {appEnv : AppEnv} {missing : List String} :
    resolveStartupConfig env = .refused appEnv missing ↔
      resolveAppEnv env = .production ∧ appEnv = .production ∧
        missingProductionVars env ≠ [] ∧ missing = missingProductionVars env := by
  by_cases production : resolveAppEnv env = .production
  · rw [resolveStartupConfig_production production]
    by_cases complete : missingProductionVars env = []
    · simp [complete]
    · simp [complete, production, eq_comm]
  · rw [resolveStartupConfig_local production]
    simp [production]

/-- The refusal is the same whatever the values are. -/
theorem SamePresence.refused (same : SamePresence env env') {appEnv : AppEnv}
    {missing : List String} : resolveStartupConfig env = .refused appEnv missing ↔
      resolveStartupConfig env' = .refused appEnv missing := by
  have appEnvs : resolveAppEnv env = resolveAppEnv env' := by
    simp only [resolveAppEnv, same.appEnv, same.nodeEnv]
  rw [resolveStartupConfig_eq_refused, resolveStartupConfig_eq_refused, appEnvs, same.missing]

end Config

end Donna
