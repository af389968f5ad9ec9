import BackboneIntegrations.OAuth.Outbound

/-!
# Endpoint overrides

Which override maps build a service. The builder goes through the providers of the registry, so that an
override under another key is never looked at.
-/

open Interleave

namespace BackboneIntegrations.OAuth

def ProviderEndpointOverride.get (o : ProviderEndpointOverride) : EndpointKey → Option String
  | .authorize => o.authorize
  | .token => o.token
  | .userinfo => o.userinfo

/-- The registry value of an endpoint. -/
def ProviderAdapter.endpoint (a : ProviderAdapter) : EndpointKey → String
  | .authorize => a.authorizeEndpoint
  | .token => a.tokenEndpoint
  | .userinfo => a.userinfoEndpoint

section

variable {crate : UrlCrate} {registry : ProviderRegistry} {p : String} {overrides : EndpointOverrides}
  {adapter : ProviderAdapter} {r : ValidatedEndpoints}

/-! ## One provider -/

/-- The endpoints of a provider are its overrides where there are any, and else the values of the
registry, each of them validated. -/
def Uses (crate : UrlCrate) (adapter : ProviderAdapter) (o : ProviderEndpointOverride)
    (r : ValidatedEndpoints) : Prop :=
  ∀ key, adapter.validate crate key ((o.get key).getD (adapter.endpoint key)) = .ok (r.get key)

theorem resolve_iff_uses (ha : registry.lookup p = some adapter) :
    ValidatedEndpoints.resolve crate registry p overrides = .ok r ↔
      Uses crate adapter (overrides.get p) r := by
  unfold ValidatedEndpoints.resolve
  simp only [ha, bind, Except.bind]
  constructor
  · intro h
    split at h
    · cases h
    rename_i authorize hauthorize
    split at h
    · cases h
    rename_i token htoken
    split at h
    · cases h
    rename_i userinfo huserinfo
    cases h
    intro key
    cases key
    · exact hauthorize
    · exact htoken
    · exact huserinfo
  · intro h
    have hauthorize : adapter.validate crate .authorize
        ((overrides.get p).authorize.getD adapter.authorizeEndpoint) = .ok r.authorize := h .authorize
    have htoken : adapter.validate crate .token
        ((overrides.get p).token.getD adapter.tokenEndpoint) = .ok r.token := h .token
    have huserinfo : adapter.validate crate .userinfo
        ((overrides.get p).userinfo.getD adapter.userinfoEndpoint) = .ok r.userinfo := h .userinfo
    simp only [hauthorize, htoken, huserinfo]
    rfl

theorem exists_uses_iff {o : ProviderEndpointOverride} : (∃ r, Uses crate adapter o r) ↔
    ∀ key, (adapter.validate crate key ((o.get key).getD (adapter.endpoint key))).isOk := by
  constructor
  · rintro ⟨r, h⟩ key
    rw [h key]
    rfl
  · intro h
    have hget : ∀ key, ∃ e,
        adapter.validate crate key ((o.get key).getD (adapter.endpoint key)) = .ok e := by
      intro key
      cases hv : adapter.validate crate key ((o.get key).getD (adapter.endpoint key)) with
      | error e =>
        have := h key
        rw [hv] at this
        cases this
      | ok e => exact ⟨e, rfl⟩
    obtain ⟨authorize, hauthorize⟩ := hget .authorize
    obtain ⟨token, htoken⟩ := hget .token
    obtain ⟨userinfo, huserinfo⟩ := hget .userinfo
    refine ⟨⟨authorize, token, userinfo⟩, fun key => ?_⟩
    cases key
    · exact hauthorize
    · exact htoken
    · exact huserinfo

/-! ## All providers -/

theorem resolveAll_error {providers : List String} {start : Table String ValidatedEndpoints}
    {e : InvalidEndpoint} (h : resolveAll crate registry overrides providers start = .error e) :
    ∃ p ∈ providers, ValidatedEndpoints.resolve crate registry p overrides = .error e := by
  induction providers generalizing start with
  | nil => cases h
  | cons provider providers ih =>
    cases hres : ValidatedEndpoints.resolve crate registry provider overrides with
    | error err =>
      rw [resolveAll, hres] at h
      cases h
      exact ⟨provider, List.mem_cons_self, hres⟩
    | ok resolved =>
      rw [resolveAll_cons hres] at h
      obtain ⟨p, hp, he⟩ := ih h
      exact ⟨p, List.mem_cons_of_mem _ hp, he⟩

/-- A URL of the map that the guard does not take for a registered provider. -/
def RefusedEntry (crate : UrlCrate) (registry : ProviderRegistry) (overrides : EndpointOverrides) : Prop :=
  ∃ p o key url adapter, overrides.lookup p = some o ∧ o.get key = some url ∧
    registry.lookup p = some adapter ∧ ¬ (adapter.validate crate key url).isOk

/-- A URL of the map under a key that is no provider. -/
def StrayEntry (registry : ProviderRegistry) (overrides : EndpointOverrides) : Prop :=
  ∃ p o key url, overrides.lookup p = some o ∧ o.get key = some url ∧ registry.lookup p = none

theorem get_of_lookup {o : ProviderEndpointOverride} (ho : overrides.lookup p = some o) :
    overrides.get p = o := by
  rw [EndpointOverrides.get, ho, Option.getD_some]

@[simp] theorem get_empty (key : EndpointKey) : (EndpointOverrides.get ∅ p).get key = none := by
  cases key <;> rfl

theorem resolve_of_not_refused (ha : registry.lookup p = some adapter)
    (hdefault : ∃ r, ValidatedEndpoints.resolve crate registry p ∅ = .ok r)
    (hno : ¬ RefusedEntry crate registry overrides) :
    ∃ r, ValidatedEndpoints.resolve crate registry p overrides = .ok r := by
  simp only [resolve_iff_uses ha, exists_uses_iff] at hdefault ⊢
  intro key
  cases ho : overrides.lookup p with
  | none =>
    have hget : overrides.get p = EndpointOverrides.get ∅ p := by
      rw [EndpointOverrides.get, ho]
      rfl
    rw [hget]
    exact hdefault key
  | some o =>
    rw [get_of_lookup ho]
    cases hkey : o.get key with
    | none => simpa using hdefault key
    | some url =>
      by_contra hbad
      exact hno ⟨p, o, key, url, adapter, ho, hkey, ha, hbad⟩

theorem not_resolve_of_refused {o : ProviderEndpointOverride} {key : EndpointKey} {url : String}
    (ho : overrides.lookup p = some o) (hkey : o.get key = some url)
    (ha : registry.lookup p = some adapter) (hbad : ¬ (adapter.validate crate key url).isOk) :
    ValidatedEndpoints.resolve crate registry p overrides ≠ .ok r := by
  intro h
  have huses := resolve_iff_uses ha |>.mp h
  rw [get_of_lookup ho] at huses
  have hone := huses key
  rw [hkey, Option.getD_some] at hone
  rw [hone] at hbad
  exact hbad rfl

end

/-! ## The build -/

section

variable {lib : Crates} {env : String → Option String} {config : IntegrationsOauthConfig}
  {svc svc₀ : IntegrationsOauthService}

/-- The configuration is valid but for its overrides. -/
def ValidBesides (lib : Crates) (env : String → Option String) (config : IntegrationsOauthConfig) :
    Prop :=
  ∃ svc, IntegrationsOauthService.build lib env { config with endpoints := ∅ } = .ok svc

theorem stateSecretVar_without :
    ({ config with endpoints := ∅ } : IntegrationsOauthConfig).stateSecretVar lib =
      config.stateSecretVar lib := by
  simp only [IntegrationsOauthConfig.stateSecretVar]

theorem build_of_besides
    (h : IntegrationsOauthService.build lib env { config with endpoints := ∅ } = .ok svc₀) :
    IntegrationsOauthService.build lib env config =
      match resolveAll lib.toUrlCrate .withBuiltin config.endpoints
          ProviderRegistry.withBuiltin.providers ∅ with
      | .error e => .error (.refused ("oauth endpoint configuration refused: " ++ e.display))
      | .ok endpoints => .ok { svc₀ with endpoints } := by
  unfold IntegrationsOauthService.build at h ⊢
  rw [stateSecretVar_without] at h
  cases hvar : config.stateSecretVar lib with
  | error e =>
    rw [hvar] at h
    cases h
  | ok name =>
    rw [hvar] at h
    simp only [bind, Except.bind] at h ⊢
    -- The secret, the base URL and the window are checked whatever the overrides are.
    cases hsecret : env name with
    | none =>
      rw [hsecret] at h
      cases h
    | some secret =>
      rw [hsecret] at h
      dsimp only at h ⊢
      split at h
      · cases h
      rename_i hlen
      rw [if_neg hlen]
      split at h
      · simp only [pure, Except.pure] at h
        split at h
        · cases h
        split at h
        · rename_i hwindow
          cases h
          cases resolveAll lib.toUrlCrate .withBuiltin config.endpoints
            ProviderRegistry.withBuiltin.providers ∅ with
          | error e => rfl
          | ok endpoints => exact dif_pos hwindow
        · cases h
      · cases h

theorem resolveAll_eq_ok_lookup {overrides : EndpointOverrides} {endpoints : Table String ValidatedEndpoints}
    (h : resolveAll lib.toUrlCrate .withBuiltin overrides ProviderRegistry.withBuiltin.providers ∅ =
      .ok endpoints)
    {p : String} {adapter : ProviderAdapter} (ha : ProviderRegistry.withBuiltin.lookup p = some adapter) :
    ∃ r, ValidatedEndpoints.resolve lib.toUrlCrate .withBuiltin p overrides = .ok r ∧
      endpoints.lookup p = some r := by
  have hone := resolveAll_lookup h p
  rwa [if_pos (ProviderRegistry.mem_providers.mpr ⟨adapter, ha⟩)] at hone

theorem build_of_refused (h : ValidBesides lib env config)
    (hbad : RefusedEntry lib.toUrlCrate .withBuiltin config.endpoints) :
    ∃ why, IntegrationsOauthService.build lib env config = .error (.refused why) := by
  obtain ⟨svc₀, h₀⟩ := h
  rw [build_of_besides h₀]
  cases hall : resolveAll lib.toUrlCrate .withBuiltin config.endpoints
    ProviderRegistry.withBuiltin.providers ∅ with
  | error e => exact ⟨_, rfl⟩
  | ok endpoints =>
    obtain ⟨p, o, key, url, adapter, ho, hkey, ha, hno⟩ := hbad
    obtain ⟨r, hr, -⟩ := resolveAll_eq_ok_lookup hall ha
    exact absurd hr (not_resolve_of_refused ho hkey ha hno)

theorem build_of_not_refused (h : ValidBesides lib env config)
    (hno : ¬ RefusedEntry lib.toUrlCrate .withBuiltin config.endpoints) :
    ∃ svc, IntegrationsOauthService.build lib env config = .ok svc := by
  obtain ⟨svc₀, h₀⟩ := h
  have hb := builtFrom_of_build h₀
  rw [build_of_besides h₀]
  cases hall : resolveAll lib.toUrlCrate .withBuiltin config.endpoints
    ProviderRegistry.withBuiltin.providers ∅ with
  | ok endpoints => exact ⟨_, rfl⟩
  | error e =>
    obtain ⟨p, hp, he⟩ := resolveAll_error hall
    obtain ⟨adapter, ha⟩ := ProviderRegistry.mem_providers.mp hp
    have hdefault := hb.resolves p adapter (by rw [hb.registry, ha])
    rw [hb.registry] at hdefault
    obtain ⟨r, hr⟩ := resolve_of_not_refused ha hdefault hno
    cases he.symm.trans hr

/-- A refused override builds no service, and a service that is built uses the overrides. -/
structure OverridesHeld (lib : Crates) (env : String → Option String)
    (config : IntegrationsOauthConfig) : Prop where
  refused : RefusedEntry lib.toUrlCrate .withBuiltin config.endpoints ∨
      StrayEntry .withBuiltin config.endpoints →
    ∃ why, IntegrationsOauthService.build lib env config = .error (.refused why)
  used : ∀ svc, IntegrationsOauthService.build lib env config = .ok svc →
    ∀ p adapter, svc.registry.lookup p = some adapter →
      ∃ r, svc.endpoints.lookup p = some r ∧ Uses lib.toUrlCrate adapter (config.endpoints.get p) r

theorem used_of_build (h : ValidBesides lib env config)
    (hsvc : IntegrationsOauthService.build lib env config = .ok svc) {p : String}
    {adapter : ProviderAdapter} (ha : svc.registry.lookup p = some adapter) :
    ∃ r, svc.endpoints.lookup p = some r ∧ Uses lib.toUrlCrate adapter (config.endpoints.get p) r := by
  obtain ⟨svc₀, h₀⟩ := h
  rw [(builtFrom_of_build hsvc).registry] at ha
  rw [build_of_besides h₀] at hsvc
  split at hsvc
  · cases hsvc
  · rename_i endpoints hall
    cases hsvc
    obtain ⟨r, hr, hlookup⟩ := resolveAll_eq_ok_lookup hall ha
    exact ⟨r, hlookup, (resolve_iff_uses ha).mp hr⟩

/-- **A refused override means no service**, exactly when a stray override comes with a refused one of a
registered provider. -/
theorem overrides_held_iff (h : ValidBesides lib env config) : OverridesHeld lib env config ↔
    (StrayEntry .withBuiltin config.endpoints →
      RefusedEntry lib.toUrlCrate .withBuiltin config.endpoints) := by
  constructor
  · intro hheld hstray
    by_contra hno
    obtain ⟨svc, hsvc⟩ := build_of_not_refused h hno
    obtain ⟨why, hwhy⟩ := hheld.refused (.inr hstray)
    cases hsvc.symm.trans hwhy
  · intro hcond
    constructor
    · rintro (hbad | hstray)
      · exact build_of_refused h hbad
      · exact build_of_refused h (hcond hstray)
    · exact fun svc hsvc p adapter ha => used_of_build h hsvc ha

end

/-! ## A misspelled key -/

def misspelledConfig : IntegrationsOauthConfig :=
  { mailConfig with
    endpoints := AList.singleton "gmial" { token := some "http://attacker.example/token" } }

theorem misspelledConfig_besides : ValidBesides mailCrates mailEnv misspelledConfig :=
  ⟨builtService, builtService_built⟩

theorem misspelledConfig_stray : StrayEntry .withBuiltin misspelledConfig.endpoints := by
  refine ⟨"gmial", _, .token, "http://attacker.example/token", rfl, rfl, ?_⟩
  decide +kernel

theorem misspelledConfig_not_refused : ¬ RefusedEntry mailCrates.toUrlCrate .withBuiltin
    misspelledConfig.endpoints := by
  rintro ⟨p, o, key, url, adapter, ho, -, ha, -⟩
  have hp : p = "gmial" := by
    have hsome : (misspelledConfig.endpoints.lookup p).isSome := by
      rw [ho]
      rfl
    rw [AList.lookup_isSome] at hsome
    simpa [misspelledConfig, AList.mem_keys] using hsome
  subst hp
  have hnone : ProviderRegistry.withBuiltin.lookup "gmial" = none := by decide +kernel
  cases hnone.symm.trans ha

theorem overrides_held_iff_misspelled : OverridesHeld mailCrates mailEnv misspelledConfig ↔
    (StrayEntry .withBuiltin misspelledConfig.endpoints →
      RefusedEntry mailCrates.toUrlCrate .withBuiltin misspelledConfig.endpoints) :=
  overrides_held_iff misspelledConfig_besides

/-! An `http` URL under the key "gmial" does not stop the build. -/

theorem misspelled_override_builds :
    ValidBesides mailCrates mailEnv misspelledConfig ∧
      StrayEntry .withBuiltin misspelledConfig.endpoints ∧
      (∃ svc, IntegrationsOauthService.build mailCrates mailEnv misspelledConfig = .ok svc) ∧
      ¬ OverridesHeld mailCrates mailEnv misspelledConfig := by
  obtain ⟨svc, hsvc⟩ := build_of_not_refused misspelledConfig_besides misspelledConfig_not_refused
  refine ⟨misspelledConfig_besides, misspelledConfig_stray, ⟨svc, hsvc⟩, fun hheld => ?_⟩
  obtain ⟨why, hwhy⟩ := hheld.refused (.inr misspelledConfig_stray)
  cases hsvc.symm.trans hwhy

end BackboneIntegrations.OAuth
