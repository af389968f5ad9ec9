import BackboneIntegrations.Basic
import BackboneIntegrations.OAuth.Endpoint

/-!
# The ports of the OAuth flow

What crosses the credential store port and the outbound transport port.
-/

namespace BackboneIntegrations.OAuth

/-! ## The credential store port -/

def purposeOauthToken := "oauth_token"

/-- The tokens of one account. -/
structure TokenBundle where
  accessToken : String
  refreshToken : Option String
  expiresAt : Time
  scope : Option String
  deriving DecidableEq, Repr

structure OAuthCredentialFailure where
  code : String
  message : String
  deriving DecidableEq, Repr

namespace OAuthCredentialFailure

def codeNotFound := "not_found"
def codeNotActive := "not_active"
def codeExpired := "expired"
def codeDuplicateActive := "duplicate_active"
def codeTransport := "transport"

def isTransport (f : OAuthCredentialFailure) : Bool := f.code == codeTransport

/-- The text of the error. -/
def display (f : OAuthCredentialFailure) : String :=
  s!"credential store call failed ({f.code}): {f.message}"

end OAuthCredentialFailure

/-! ## The transport port -/

structure TokenRequestForm where
  grantType : String
  code : Option String
  refreshToken : Option String
  redirectUri : Option String
  codeVerifier : Option String
  clientId : String
  clientSecret : Option String
  scope : Option String
  deriving DecidableEq, Repr

structure TokenResponse where
  accessToken : String
  refreshToken : Option String
  expiresIn : Option Int
  scope : Option String
  idToken : Option String
  deriving DecidableEq, Repr

/-- The lifetime that `expires_at` adds to now: none for an absent or a non-positive one. -/
def TokenResponse.lifetime (r : TokenResponse) : Option Int := r.expiresIn.filter (0 < ·)

structure IdentityClaims where
  email : Option String
  emailVerified : Option Bool
  audience : Option String
  nonce : Option String
  deriving DecidableEq, Repr

inductive TransportFailureKind where
  | invalidGrant | provider | network | endpointGuard
  deriving DecidableEq, Repr

def TransportFailureKind.display : TransportFailureKind → String
  | .invalidGrant => "invalid_grant"
  | .provider => "provider refused"
  | .network => "network failure"
  | .endpointGuard => "endpoint guard refusal"

structure TransportFailure where
  kind : TransportFailureKind
  message : String
  deriving DecidableEq, Repr

def TransportFailure.isInvalidGrant (f : TransportFailure) : Bool := f.kind == .invalidGrant

def TransportFailure.display (f : TransportFailure) : String :=
  s!"oauth transport failure ({f.kind.display}): {f.message}"

end BackboneIntegrations.OAuth
