import BackboneIntegrations.Text
import BackboneIntegrations.Interleave.Txs

/-!
# The endpoint guard

The provider registry, and the rules that every endpoint URL passes before use. How a
URL is parsed and printed is a parameter: that is the `url` crate's work.
-/

open Interleave

namespace BackboneIntegrations.OAuth

/-! ## URLs -/

/-- The parts of a parsed URL that the guard reads. `host` is `host_str()`. -/
structure Url where
  scheme : String
  username : String
  password : Option String
  host : Option String
  port : Option Nat
  path : String
  query : Option String
  fragment : Option String
  deriving DecidableEq, Repr

structure UrlCrate where
  parse : String → Except String Url
  asStr : Url → String
  /-- The URL as text after `query_pairs_mut().append_pair(..)` for each pair. -/
  appendPairs : Url → List (String × String) → String

/-! ## IP literals

`str::parse::<IpAddr>`, as far as whether it accepts. A reader takes what it accepts off
the front of the text.
-/

def digitValue (c : Char) : Nat :=
  if c.isDigit then c.toNat - '0'.toNat else c.toLower.toNat - 'a'.toNat + 10

def isDigitOf (radix : Nat) (c : Char) : Bool :=
  c.isAlphanum && c.toNat < 128 && digitValue c < radix

def readNumber (radix maxDigits bound : Nat) (allowZeroPrefix : Bool) (s : List Char) :
    Option (List Char) :=
  let ds := s.takeWhile (isDigitOf radix)
  let value := ds.foldl (fun n c => n * radix + digitValue c) 0
  if ds = [] ∨ maxDigits < ds.length ∨ bound < value then none
  else if !allowZeroPrefix && ds.head? == some '0' && 1 < ds.length then none
  else some (s.dropWhile (isDigitOf radix))

def readGivenChar (c : Char) : List Char → Option (List Char)
  | c' :: s => if c' = c then some s else none
  | [] => none

def readSeparator (sep : Char) (index : Nat) (inner : List Char → Option (List Char))
    (s : List Char) : Option (List Char) :=
  if 0 < index then (readGivenChar sep s).bind inner else inner s

def readIpv4Addr (s : List Char) : Option (List Char) :=
  let group (i : Nat) := readSeparator '.' i (readNumber 10 3 255 false)
  group 0 s >>= group 1 >>= group 2 >>= group 3

/-- The groups of an IPv6 address from the `i`-th on, with `left` groups left of the limit.
Answers with the number of groups, whether an IPv4 address ends them, and the rest. -/
def readGroups (i : Nat) : (left : Nat) → List Char → Nat × Bool × List Char
  | 0, s => (i, false, s)
  | left + 1, s =>
    let v4 := if 0 < left then readSeparator ':' i readIpv4Addr s else none
    match v4 with
    | some s' => (i + 2, true, s')
    | none =>
      match readSeparator ':' i (readNumber 16 4 0xFFFF true) s with
      | some s' => readGroups (i + 1) left s'
      | none => (i, false, s)

def readIpv6Addr (s : List Char) : Option (List Char) :=
  let (headSize, headIpv4, s) := readGroups 0 8 s
  if headSize = 8 then some s
  else if headIpv4 then none
  else do
    let s ← readGivenChar ':' s
    let s ← readGivenChar ':' s
    let (_, _, s) := readGroups 0 (8 - (headSize + 1)) s
    return s

def isIpAddr (s : String) : Bool :=
  ((readIpv4Addr s.toList).or (readIpv6Addr s.toList)) == some []

example : isIpAddr "127.0.0.1" = true := by decide
example : isIpAddr "::ffff:10.0.0.1" = true := by decide
example : isIpAddr "1.example.com" = false := by decide

/-! ## The provider registry -/

def providerGmail := "gmail"
def providerOutlook := "outlook"
def providerGoogleCalendar := "google_calendar"
def providerMicrosoftCalendar := "microsoft_calendar"

def googleHosts : List String :=
  ["accounts.google.com", "oauth2.googleapis.com", "openidconnect.googleapis.com",
    "www.googleapis.com"]

def microsoftHosts : List String :=
  ["login.microsoftonline.com", "graph.microsoft.com", "outlook.office365.com"]

inductive EndpointKey where
  | authorize | token | userinfo
  deriving DecidableEq, Repr

/-- The key as it appears in configuration. -/
def EndpointKey.asStr : EndpointKey → String
  | authorize => "authorize"
  | token => "token"
  | userinfo => "userinfo"

structure ProviderAdapter where
  provider : String
  authorizeEndpoint : String
  tokenEndpoint : String
  userinfoEndpoint : String
  defaultScopes : String
  pkceS256 : Bool
  hostAllowlist : List String
  deriving DecidableEq, Repr

def gmailAdapter : ProviderAdapter where
  provider := providerGmail
  authorizeEndpoint := "https://accounts.google.com/o/oauth2/v2/auth"
  tokenEndpoint := "https://oauth2.googleapis.com/token"
  userinfoEndpoint := "https://openidconnect.googleapis.com/v1/userinfo"
  defaultScopes :=
    "https://mail.google.com/ openid https://www.googleapis.com/auth/userinfo.email"
  pkceS256 := true
  hostAllowlist := googleHosts

def googleCalendarAdapter : ProviderAdapter where
  provider := providerGoogleCalendar
  authorizeEndpoint := "https://accounts.google.com/o/oauth2/v2/auth"
  tokenEndpoint := "https://oauth2.googleapis.com/token"
  userinfoEndpoint := "https://openidconnect.googleapis.com/v1/userinfo"
  defaultScopes := "https://www.googleapis.com/auth/calendar openid " ++
    "https://www.googleapis.com/auth/userinfo.email"
  pkceS256 := true
  hostAllowlist := googleHosts

def outlookAdapter : ProviderAdapter where
  provider := providerOutlook
  authorizeEndpoint := "https://login.microsoftonline.com/common/oauth2/v2.0/authorize"
  tokenEndpoint := "https://login.microsoftonline.com/common/oauth2/v2.0/token"
  userinfoEndpoint := "https://graph.microsoft.com/oidc/userinfo"
  defaultScopes := "https://outlook.office365.com/SMTP.Send " ++
    "https://outlook.office365.com/IMAP.AccessAsUser.All openid email profile"
  pkceS256 := true
  hostAllowlist := microsoftHosts

def microsoftCalendarAdapter : ProviderAdapter where
  provider := providerMicrosoftCalendar
  authorizeEndpoint := "https://login.microsoftonline.com/common/oauth2/v2.0/authorize"
  tokenEndpoint := "https://login.microsoftonline.com/common/oauth2/v2.0/token"
  userinfoEndpoint := "https://graph.microsoft.com/oidc/userinfo"
  defaultScopes := "https://graph.microsoft.com/Calendars.ReadWrite openid email profile"
  pkceS256 := true
  hostAllowlist := microsoftHosts

structure ProviderRegistry where
  adapters : Table String ProviderAdapter

namespace ProviderRegistry

def new : ProviderRegistry := ⟨∅⟩

def register (r : ProviderRegistry) (adapter : ProviderAdapter) : ProviderRegistry :=
  ⟨r.adapters.insert adapter.provider adapter⟩

def withBuiltin : ProviderRegistry :=
  [gmailAdapter, outlookAdapter, googleCalendarAdapter, microsoftCalendarAdapter].foldl register new

def lookup (r : ProviderRegistry) (provider : String) : Option ProviderAdapter :=
  r.adapters.lookup provider

/-- All registered provider keys, sorted. -/
def providers (r : ProviderRegistry) : List String := r.adapters.keys.mergeSort fun a b => a ≤ b

theorem mem_providers {r : ProviderRegistry} {provider : String} :
    provider ∈ r.providers ↔ ∃ a, r.lookup provider = some a := by
  rw [providers, (List.mergeSort_perm _ _).mem_iff, ← AList.mem_keys, ← AList.lookup_isSome,
    Option.isSome_iff_exists]
  rfl

/-- The registries that can be made: the adapters are private, and `register` files each of them under
its own key. -/
inductive Built : ProviderRegistry → Prop
  | new : Built new
  | register {r} (h : Built r) (adapter : ProviderAdapter) : Built (r.register adapter)

theorem Built.foldl {r : ProviderRegistry} (h : r.Built) (adapters : List ProviderAdapter) :
    (adapters.foldl ProviderRegistry.register r).Built := by
  induction adapters generalizing r with
  | nil => exact h
  | cons a as ih => exact ih (h.register a)

theorem withBuiltin_built : withBuiltin.Built := Built.new.foldl _

theorem Built.provider_eq {r : ProviderRegistry} (h : r.Built) {provider : String} {a : ProviderAdapter}
    (ha : r.lookup provider = some a) : a.provider = provider := by
  induction h with
  | new => cases ha
  | @register r _ adapter ih =>
    simp only [ProviderRegistry.register, lookup, Table.lookup_insert_ite] at ha
    split at ha
    · cases ha
      exact Eq.symm ‹_›
    · exact ih ha

end ProviderRegistry

/-! ## The guard -/

structure InvalidEndpoint where
  provider : String
  key : EndpointKey
  url : String
  reason : String
  deriving DecidableEq, Repr

/-- The core of an IPv6 literal: `[::1]` without its brackets. -/
def hostCore (host : String) : String :=
  match host.toList with
  | '[' :: rest =>
    match rest.reverse with
    | ']' :: core => String.ofList core.reverse
    | _ => host
  | _ => host

def hostAllowed (allowlist : List String) (host : String) : Bool :=
  let hostLc := Text.toAsciiLowercase host
  allowlist.any fun entry =>
    let entry := Text.toAsciiLowercase entry
    hostLc == entry || Text.endsWith hostLc ("." ++ entry)

/-- The first rule that a parsed URL breaks, in the order of `validate_endpoint`. -/
def Url.violation (allowlist : List String) (url : Url) : Option String :=
  if url.scheme ≠ "https" then some "scheme must be https"
  else match url.host with
  | none => some "URL carries no host"
  | some host =>
    if host.isEmpty then some "URL carries no host"
    else if ¬ url.username.isEmpty ∨ url.password.isSome then some "userinfo component forbidden"
    else if isIpAddr (hostCore host) then some "IP-literal host forbidden"
    else if ¬ hostAllowed allowlist host then some "host is not on the provider allowlist"
    else if url.port ≠ none ∧ url.port ≠ some 443 then some "only port 443 is permitted"
    else if url.path.isEmpty ∨ url.path = "/" then some "endpoint must carry a non-root path"
    else if url.query.isSome then some "query string forbidden in a configured endpoint"
    else if url.fragment.isSome then some "fragment forbidden in a configured endpoint"
    else none

/-- A URL that passed the rules. There is no other way to build one. -/
structure ValidatedEndpoint where
  providerKey : String
  key : EndpointKey
  url : Url
  accepted : ∃ allowlist, url.violation allowlist = none
  deriving DecidableEq

def validateEndpoint (crate : UrlCrate) (provider : String) (key : EndpointKey)
    (allowlist : List String) (urlStr : String) : Except InvalidEndpoint ValidatedEndpoint :=
  let reject (reason : String) : InvalidEndpoint := ⟨provider, key, urlStr, reason⟩
  match crate.parse urlStr with
  | .error _ => .error (reject "not a parseable URL")
  | .ok url =>
    match h : url.violation allowlist with
    | some reason => .error (reject reason)
    | none => .ok ⟨provider, key, url, allowlist, h⟩

def ProviderAdapter.validate (crate : UrlCrate) (a : ProviderAdapter) (key : EndpointKey)
    (url : String) : Except InvalidEndpoint ValidatedEndpoint :=
  validateEndpoint crate a.provider key a.hostAllowlist url

theorem validateEndpoint_isOk {crate : UrlCrate} {provider : String} {key : EndpointKey}
    {allowlist : List String} {urlStr : String} :
    (validateEndpoint crate provider key allowlist urlStr).isOk ↔
      ∃ url, crate.parse urlStr = .ok url ∧ url.violation allowlist = none := by
  unfold validateEndpoint
  cases hp : crate.parse urlStr with
  | error e => simp [Except.isOk, Except.toBool]
  | ok url =>
    simp only [Except.ok.injEq, exists_eq_left']
    split <;> simp_all [Except.isOk, Except.toBool]

theorem validateEndpoint_ok {crate : UrlCrate} {provider : String} {key : EndpointKey}
    {allowlist : List String} {urlStr : String} {e : ValidatedEndpoint}
    (h : validateEndpoint crate provider key allowlist urlStr = .ok e) :
    crate.parse urlStr = .ok e.url ∧ e.url.violation allowlist = none ∧ e.providerKey = provider ∧
      e.key = key := by
  unfold validateEndpoint at h
  cases hp : crate.parse urlStr with
  | error err =>
    rw [hp] at h
    cases h
  | ok url =>
    rw [hp] at h
    simp only at h
    split at h
    · cases h
    · cases h
      exact ⟨rfl, ‹_›, rfl, rfl⟩

/-- The rules again, for the URL of the endpoint and the allowlist of its provider in the registry. -/
def ValidatedEndpoint.revalidate (crate : UrlCrate) (e : ValidatedEndpoint)
    (registry : ProviderRegistry) : Except InvalidEndpoint Unit :=
  match registry.lookup e.providerKey with
  | none => .error ⟨e.providerKey, e.key, crate.asStr e.url, "provider is not registered"⟩
  | some adapter =>
    (validateEndpoint crate adapter.provider e.key adapter.hostAllowlist (crate.asStr e.url)).map
      fun _ => ()

/-- What the `url` crate documents: the text of a parsed URL parses to that URL. -/
def UrlCrate.Reparses (crate : UrlCrate) : Prop :=
  ∀ s url, crate.parse s = .ok url → crate.parse (crate.asStr url) = .ok url

theorem ValidatedEndpoint.revalidate_ok {crate : UrlCrate} (hcrate : crate.Reparses)
    {registry : ProviderRegistry} (hreg : registry.Built) {provider : String} {adapter : ProviderAdapter}
    (ha : registry.lookup provider = some adapter) {key : EndpointKey} {s : String}
    {e : ValidatedEndpoint} (h : adapter.validate crate key s = .ok e) :
    e.revalidate crate registry = .ok () := by
  obtain ⟨hparse, hrules, hprovider, -⟩ := validateEndpoint_ok h
  have hlookup : registry.lookup e.providerKey = some adapter := by
    rw [hprovider, hreg.provider_eq ha, ha]
  have hagain : (validateEndpoint crate adapter.provider e.key adapter.hostAllowlist
      (crate.asStr e.url)).isOk :=
    validateEndpoint_isOk.mpr ⟨e.url, hcrate s e.url hparse, hrules⟩
  simp only [revalidate, hlookup]
  cases hv : validateEndpoint crate adapter.provider e.key adapter.hostAllowlist (crate.asStr e.url) with
  | error err =>
    rw [hv] at hagain
    cases hagain
  | ok e' => rfl

/-- The host is an entry of an allowlist or a subdomain of it, up to ASCII case. -/
def Within (host entry : String) : Prop :=
  Text.toAsciiLowercase host = Text.toAsciiLowercase entry ∨
    ("." ++ Text.toAsciiLowercase entry).toList <:+ (Text.toAsciiLowercase host).toList

theorem Url.within_of_violation {url : Url} {allowlist : List String}
    (h : url.violation allowlist = none) :
    ∃ host, url.host = some host ∧ ∃ entry ∈ allowlist, Within host entry := by
  unfold Url.violation at h
  split at h
  · cases h
  split at h
  · cases h
  rename_i host hhost
  refine ⟨host, hhost, ?_⟩
  split at h
  · cases h
  split at h
  · cases h
  split at h
  · cases h
  split at h
  · cases h
  · rename_i hallowed
    replace hallowed := not_not.mp hallowed
    simp only [hostAllowed, List.any_eq_true, Bool.or_eq_true, beq_iff_eq, Text.endsWith,
      List.isSuffixOf_iff_suffix] at hallowed
    obtain ⟨entry, hm, hw⟩ := hallowed
    exact ⟨entry, hm, hw⟩

/-! ## Overrides and clients -/

structure ProviderEndpointOverride where
  authorize : Option String := none
  token : Option String := none
  userinfo : Option String := none
  deriving DecidableEq, Repr

/-- The `oauth.endpoints` section: provider key to overrides. -/
abbrev EndpointOverrides := Table String ProviderEndpointOverride

def EndpointOverrides.get (o : EndpointOverrides) (provider : String) : ProviderEndpointOverride :=
  (o.lookup provider).getD {}

structure ValidatedEndpoints where
  authorize : ValidatedEndpoint
  token : ValidatedEndpoint
  userinfo : ValidatedEndpoint
  deriving DecidableEq

def ValidatedEndpoints.resolve (crate : UrlCrate) (registry : ProviderRegistry)
    (provider : String) (overrides : EndpointOverrides) :
    Except InvalidEndpoint ValidatedEndpoints := do
  let some adapter := registry.lookup provider
    | throw ⟨provider, .token, "", "provider is not registered"⟩
  let o := overrides.get provider
  let pick (key : EndpointKey) (registryValue : String) (overrideValue : Option String) :=
    adapter.validate crate key (overrideValue.getD registryValue)
  let authorize ← pick .authorize adapter.authorizeEndpoint o.authorize
  let token ← pick .token adapter.tokenEndpoint o.token
  let userinfo ← pick .userinfo adapter.userinfoEndpoint o.userinfo
  return ⟨authorize, token, userinfo⟩

theorem ValidatedEndpoints.resolve_ok {crate : UrlCrate} {registry : ProviderRegistry}
    {provider : String} {overrides : EndpointOverrides} {r : ValidatedEndpoints}
    (h : resolve crate registry provider overrides = .ok r) :
    ∃ adapter, registry.lookup provider = some adapter ∧
      (∃ s, adapter.validate crate .authorize s = .ok r.authorize) ∧
      (∃ s, adapter.validate crate .token s = .ok r.token) ∧
      (∃ s, adapter.validate crate .userinfo s = .ok r.userinfo) := by
  unfold resolve at h
  cases ha : registry.lookup provider with
  | none =>
    rw [ha] at h
    cases h
  | some adapter =>
    rw [ha] at h
    simp only [bind, Except.bind] at h
    split at h
    · cases h
    rename_i authorize hauthorize
    split at h
    · cases h
    rename_i token htoken
    split at h
    · cases h
    rename_i userinfo huserinfo
    cases h
    exact ⟨adapter, rfl, ⟨_, hauthorize⟩, ⟨_, htoken⟩, ⟨_, huserinfo⟩⟩

structure OAuthClientConfig where
  clientId : String
  clientSecret : Option String
  deriving DecidableEq, Repr

/-- The `oauth.clients` section: provider key to client. -/
abbrev OAuthClientConfigs := Table String OAuthClientConfig

def OAuthClientConfigs.get (c : OAuthClientConfigs) (provider : String) : Option OAuthClientConfig :=
  c.lookup provider

end BackboneIntegrations.OAuth
