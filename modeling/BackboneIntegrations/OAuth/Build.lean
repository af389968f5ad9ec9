import BackboneIntegrations.OAuth.Service

/-!
# Building the service

The service is built from its configuration once. A bad endpoint override builds no service.
-/

open Interleave

namespace BackboneIntegrations.OAuth

/-- The text of the error. -/
def InvalidEndpoint.display (e : InvalidEndpoint) : String :=
  s!"invalid {e.key.asStr} endpoint for {e.provider} ({e.url}): {e.reason}"

def defaultStateSecretEnv := "INTEGRATIONS_OAUTH_STATE_SECRET"

structure IntegrationsOauthConfig where
  publicBase : Option String := none
  clients : OAuthClientConfigs := ∅
  endpoints : EndpointOverrides := ∅
  refreshWindowSeconds : Int := 600
  refreshBatchSize : Int := 100
  sharedMailboxBypass : Bool := false
  stateSecretSource : String := "env:" ++ defaultStateSecretEnv

/-- An error, or the panic of `Duration::seconds`. -/
inductive BuildFailure where
  | refused (why : String)
  | panicked
  deriving DecidableEq, Repr

/-- The name of the environment variable that holds the state-signing key. -/
def IntegrationsOauthConfig.stateSecretVar (lib : Crates) (config : IntegrationsOauthConfig) :
    Except BuildFailure String := do
  let source := Text.trim config.stateSecretSource
  let some name := (Text.stripPrefix source "env:").map Text.trim
    | throw (.refused ("oauth.state_secret_source must name an environment variable (env:NAME), got " ++
        Text.debug lib.unprintable source ++ " — a file value is never accepted"))
  if name.isEmpty then throw (.refused "oauth.state_secret_source names no variable")
  return name

def ValidatedEndpoints.get (r : ValidatedEndpoints) : EndpointKey → ValidatedEndpoint
  | .authorize => r.authorize
  | .token => r.token
  | .userinfo => r.userinfo

/-- The endpoints of every provider, or the first rejection. -/
def resolveAll (crate : UrlCrate) (registry : ProviderRegistry) (overrides : EndpointOverrides) :
    List String → Table String ValidatedEndpoints → Except InvalidEndpoint (Table String ValidatedEndpoints)
  | [], endpoints => .ok endpoints
  | provider :: providers, endpoints => do
    let resolved ← ValidatedEndpoints.resolve crate registry provider overrides
    resolveAll crate registry overrides providers (endpoints.insert provider resolved)

/-- `env` is `std::env::var`. -/
def IntegrationsOauthService.build (lib : Crates) (env : String → Option String)
    (config : IntegrationsOauthConfig) : Except BuildFailure IntegrationsOauthService := do
  let name ← config.stateSecretVar lib
  let some secret := env name
    | throw (.refused ("environment variable " ++ name ++ " (the OAuth state-signing key) is not set"))
  if secret.utf8ByteSize < 32 then
    throw (.refused ("environment variable " ++ name ++
      " must hold at least 32 bytes (an HMAC-SHA256 key)"))
  let some publicBase := (config.publicBase.map fun s => Text.trimEndMatches (Text.trim s) '/').filter
      (! ·.isEmpty)
    | throw (.refused "oauth.public_base is required (the OAuth redirect_uri base)")
  let registry := ProviderRegistry.withBuiltin
  match resolveAll lib.toUrlCrate registry config.endpoints registry.providers ∅ with
  | .error e => throw (.refused ("oauth endpoint configuration refused: " ++ e.display))
  | .ok endpoints =>
    if h : max config.refreshWindowSeconds 0 ≤ maxDurationSeconds then
      return {
        registry, endpoints, publicBase
        clients := config.clients
        signer := ⟨secret.toUTF8.data.toList⟩
        refreshWindow := max config.refreshWindowSeconds 0
        window_range := ⟨by omega, h⟩
        refreshBatchSize := (max config.refreshBatchSize 1).toNat
        batch_pos := by omega
        sharedMailboxBypass := config.sharedMailboxBypass }
    else throw .panicked

theorem resolveAll_cons {crate : UrlCrate} {registry : ProviderRegistry} {overrides : EndpointOverrides}
    {provider : String} {providers : List String} {endpoints : Table String ValidatedEndpoints}
    {resolved : ValidatedEndpoints}
    (h : ValidatedEndpoints.resolve crate registry provider overrides = .ok resolved) :
    resolveAll crate registry overrides (provider :: providers) endpoints =
      resolveAll crate registry overrides providers (endpoints.insert provider resolved) := by
  rw [resolveAll, h]
  rfl

theorem resolveAll_lookup {crate : UrlCrate} {registry : ProviderRegistry} {overrides : EndpointOverrides}
    {providers : List String} {start endpoints : Table String ValidatedEndpoints}
    (h : resolveAll crate registry overrides providers start = .ok endpoints) (p : String) :
    if p ∈ providers then
      ∃ r, ValidatedEndpoints.resolve crate registry p overrides = .ok r ∧ endpoints.lookup p = some r
    else endpoints.lookup p = start.lookup p := by
  induction providers generalizing start with
  | nil =>
    cases h
    simp
  | cons provider providers ih =>
    simp only [resolveAll, bind, Except.bind] at h
    split at h
    · cases h
    rename_i resolved hresolved
    have hrest := ih h
    by_cases hm : p ∈ providers
    · rw [if_pos hm] at hrest
      rw [if_pos (List.mem_cons_of_mem _ hm)]
      exact hrest
    · rw [if_neg hm, Table.lookup_insert_ite] at hrest
      by_cases hp : p = provider
      · subst hp
        rw [if_pos rfl] at hrest
        rw [if_pos List.mem_cons_self]
        exact ⟨resolved, hresolved, hrest⟩
      · rw [if_neg hp] at hrest
        rw [if_neg (by simp [hp, hm])]
        exact hrest

/-- A service holds the resolved endpoints of every provider, and of no other key. -/
structure BuiltFrom (crate : UrlCrate) (overrides : EndpointOverrides) (svc : IntegrationsOauthService) :
    Prop where
  registry : svc.registry = .withBuiltin
  resolves : ∀ p adapter, svc.registry.lookup p = some adapter →
    ∃ r, ValidatedEndpoints.resolve crate svc.registry p overrides = .ok r
  endpoints : ∀ p r, svc.endpoints.lookup p = some r →
    ValidatedEndpoints.resolve crate svc.registry p overrides = .ok r

theorem builtFrom_of_build {lib : Crates} {env : String → Option String}
    {config : IntegrationsOauthConfig} {svc : IntegrationsOauthService}
    (h : IntegrationsOauthService.build lib env config = .ok svc) :
    BuiltFrom lib.toUrlCrate config.endpoints svc := by
  unfold IntegrationsOauthService.build at h
  cases hvar : config.stateSecretVar lib with
  | error e =>
    rw [hvar] at h
    cases h
  | ok name =>
    rw [hvar] at h
    simp only [bind, Except.bind] at h
    split at h
    · rename_i secret _
      split at h
      · cases h
      split at h
      · rename_i publicBase _
        simp only [pure, Except.pure] at h
        split at h
        · cases h
        · rename_i endpoints hall
          split at h
          · cases h
            have hlookup := resolveAll_lookup hall
            constructor
            · rfl
            · intro p adapter hp
              have hone := hlookup p
              rw [if_pos (ProviderRegistry.mem_providers.mpr ⟨adapter, hp⟩)] at hone
              obtain ⟨r, hr, -⟩ := hone
              exact ⟨r, hr⟩
            · intro p r hp
              have hone := hlookup p
              by_cases hm : p ∈ ProviderRegistry.withBuiltin.providers
              · rw [if_pos hm] at hone
                obtain ⟨r', hr, hr'⟩ := hone
                cases hp.symm.trans hr'
                exact hr
              · rw [if_neg hm, hp] at hone
                cases hone
          · cases h
      · cases h
    · cases h

namespace IntegrationsOauthService

variable {lib : Crates} {svc : IntegrationsOauthService}

theorem endpointsFor_ok {provider clientId : String} {endpoints : ValidatedEndpoints}
    (h : svc.endpointsFor lib provider = .ok (endpoints, clientId)) :
    svc.endpoints.lookup provider = some endpoints := by
  unfold endpointsFor at h
  split at h
  · rename_i resolved hresolved
    split at h
    · cases h
      exact hresolved
    · cases h
  · cases h

end IntegrationsOauthService

end BackboneIntegrations.OAuth
