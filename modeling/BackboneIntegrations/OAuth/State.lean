import BackboneIntegrations.OAuth.Ports

/-!
# The signed state and the identity checks

The state token binds one authorization to its account row. The checks compare what the
provider says about the token with that binding. Hashes, base64 and JSON are parameters.
-/

namespace BackboneIntegrations.OAuth

abbrev Bytes := List UInt8

/-! ## Parameters -/

/-- A JSON value, without the numbers: no check reads one. -/
inductive Json where
  | null
  | bool (b : Bool)
  | number
  | string (s : String)
  | array (xs : List Json)
  | object (fields : List (String × Json))

/-- `Value::get` with a key. -/
def Json.get : Json → String → Option Json
  | .object fields, key => fields.lookup key
  | _, _ => none

def Json.asStr : Json → Option String
  | .string s => some s
  | _ => none

/-- What the signed state binds: an account row, its provider, a nonce and an expiry in seconds. -/
structure OAuthState where
  accountId : Uuid
  provider : String
  nonce : String
  exp : Int
  deriving DecidableEq, Repr

structure Crates extends UrlCrate where
  /-- `URL_SAFE_NO_PAD`. -/
  encode : Bytes → String
  decode : String → Option Bytes
  hmacSha256 : Bytes → Bytes → Bytes
  sha256 : Bytes → Bytes
  stateToVec : OAuthState → Except String Bytes
  stateFromSlice : Bytes → Option OAuthState
  jsonFromSlice : Bytes → Option Json
  /-- The characters that `{:?}` escapes by the Unicode tables of the standard library. -/
  unprintable : Char → Bool

inductive OauthError where
  | invalid (why : String)
  | state (why : String)
  | providerUnconfigured (why : String)
  | notFound
  | identity (why : String)
  | unstoreable (why : String)
  | transport (why : String)
  | store (why : String)
  | db (e : DbError)
  deriving DecidableEq, Repr

variable (lib : Crates)

/-! ## The state signer -/

def stateTtlSeconds : Int := 600

structure StateSigner where
  key : Bytes

namespace StateSigner

def mint (s : StateSigner) (state : OAuthState) : Except OauthError String :=
  match lib.stateToVec state with
  | .error e => .error (.state ("state serialization: " ++ e))
  | .ok payload => .ok (lib.encode payload ++ "." ++ lib.encode (lib.hmacSha256 s.key payload))

/-- `verify` up to the clock: the binding of a token with an authentic signature. -/
def binding (s : StateSigner) (token : String) : Except OauthError OAuthState := do
  let some (payloadB64, macB64) := Text.splitOnce token '.' | throw (.state "malformed state")
  let some payload := lib.decode payloadB64 | throw (.state "malformed state payload")
  let some presented := lib.decode macB64 | throw (.state "malformed state signature")
  let expected := lib.hmacSha256 s.key payload
  if presented.length ≠ expected.length ∨ presented ≠ expected then
    throw (.state "state signature mismatch")
  let some state := lib.stateFromSlice payload
    | throw (.state "state payload is not a valid binding")
  return state

/-- The token carries this binding under a MAC of this key. -/
structure Authentic (s : StateSigner) (token : String) (state : OAuthState) : Prop where
  signed : ∃ payloadB64 macB64 payload, Text.splitOnce token '.' = some (payloadB64, macB64) ∧
    lib.decode payloadB64 = some payload ∧
    lib.decode macB64 = some (lib.hmacSha256 s.key payload) ∧
    lib.stateFromSlice payload = some state

variable {lib} in
theorem authentic_of_binding {s : StateSigner} {token : String} {state : OAuthState}
    (h : s.binding lib token = .ok state) : s.Authentic lib token state := by
  simp only [binding] at h
  split at h
  · rename_i payloadB64 macB64 hsplit
    split at h
    · rename_i payload hpayload
      split at h
      · rename_i presented hmac
        split at h
        · cases h
        · rename_i heq
          split at h
          · rename_i st hst
            cases h
            have : presented = lib.hmacSha256 s.key payload := by tauto
            exact ⟨payloadB64, macB64, payload, hsplit, hpayload, this ▸ hmac, hst⟩
          · cases h
      · cases h
    · cases h
  · cases h

variable {lib} in
theorem Authentic.unique {s : StateSigner} {token : String} {state state' : OAuthState}
    (h : s.Authentic lib token state) (h' : s.Authentic lib token state') : state = state' := by
  obtain ⟨p, m, b, hsplit, hdec, -, hjson⟩ := h.signed
  obtain ⟨p', m', b', hsplit', hdec', -, hjson'⟩ := h'.signed
  rw [hsplit] at hsplit'
  cases hsplit'
  rw [hdec] at hdec'
  cases hdec'
  rw [hjson] at hjson'
  exact Option.some.inj hjson'

/-- What the crates document about base64 and serde, for the payloads of a signer: both come back, and
`.` is no base64 digit. -/
structure RoundTrips (s : StateSigner) : Prop where
  payload : ∀ state payload, lib.stateToVec state = .ok payload →
    lib.decode (lib.encode payload) = some payload ∧ '.' ∉ (lib.encode payload).toList ∧
      lib.stateFromSlice payload = some state
  mac : ∀ state payload, lib.stateToVec state = .ok payload →
    lib.decode (lib.encode (lib.hmacSha256 s.key payload)) = some (lib.hmacSha256 s.key payload)

variable {lib} in
theorem binding_of_mint {s : StateSigner} (hs : s.RoundTrips lib) {state : OAuthState} {token : String}
    (h : s.mint lib state = .ok token) : s.binding lib token = .ok state := by
  unfold mint at h
  cases hp : lib.stateToVec state with
  | error e =>
    rw [hp] at h
    cases h
  | ok payload =>
    rw [hp] at h
    have htok : token = lib.encode payload ++ String.singleton '.' ++
        lib.encode (lib.hmacSha256 s.key payload) := by
      cases h
      rfl
    obtain ⟨hdec, hdot, hjson⟩ := hs.payload _ _ hp
    have hmac := hs.mac _ _ hp
    have hsplit := Text.splitOnce_append (b := lib.encode (lib.hmacSha256 s.key payload)) hdot
    rw [← htok] at hsplit
    simp only [binding, hsplit, hdec, hmac, hjson]
    rw [if_neg (by simp)]
    rfl

end StateSigner

/-- The S256 challenge of a PKCE verifier. -/
def pkceChallenge (verifier : String) : String :=
  lib.encode (lib.sha256 verifier.toUTF8.data.toList)

/-! ## Audience and nonce -/

def mergeClaim (fromIdentity fromIdToken : Option String) : Except OauthError (Option String) :=
  match fromIdentity, fromIdToken with
  | some a, some b =>
    if Text.eqIgnoreAsciiCase a b then .ok (some a)
    else .error (.identity "identity reads disagree on a token claim (refused)")
  | some a, none => .ok (some a)
  | none, some b => .ok (some b)
  | none, none => .ok none

structure DecodedIdToken where
  audience : Option String
  nonce : Option String

/-- `id_token.split('.').nth(1)`. -/
def secondSegment (idToken : String) : Option String :=
  (Text.splitOnce idToken '.').map fun (_, rest) =>
    ((Text.splitOnce rest '.').map Prod.fst).getD rest

def decodeIdTokenClaims (idToken : String) : Option DecodedIdToken := do
  let payloadB64 ← secondSegment idToken
  let payload ← lib.decode (Text.trimEndMatches payloadB64 '=')
  let value ← lib.jsonFromSlice payload
  let aud ← value.get "aud"
  let audience := match aud with
    | .string s => some s
    | .array a => a.head?.bind Json.asStr
    | _ => none
  return ⟨audience, (value.get "nonce").bind Json.asStr⟩

/-- The effective claim: the identity read's, else the id_token's. -/
def effective (fromIdentity fromIdToken : Option String) : Option String :=
  fromIdentity.or fromIdToken

theorem mergeClaim_eq {a b c : Option String} (h : mergeClaim a b = .ok c) : c = effective a b := by
  cases a <;> cases b <;> simp only [mergeClaim] at h
  case some.some =>
    split at h
    · cases h
      rfl
    · cases h
  all_goals
    cases h
    rfl

def verifyAudienceAndNonce (identity : IdentityClaims) (idToken : Option String)
    (clientId stateNonce : String) : Except OauthError Unit := do
  let decoded := idToken.bind (decodeIdTokenClaims lib)
  let audience ← mergeClaim identity.audience (decoded.bind (·.audience))
  let nonce ← mergeClaim identity.nonce (decoded.bind (·.nonce))
  let some aud := audience | throw (.identity "identity carries no audience to verify")
  if aud ≠ clientId then
    throw (.identity ("token audience " ++ Text.debug lib.unprintable aud ++
      " is not this deployment's client (token substitution rejected)"))
  let some nonce := nonce | throw (.identity "identity carries no nonce to verify")
  if nonce ≠ stateNonce then
    throw (.identity "nonce does not match the signed state (replay rejected)")

variable {lib} in
theorem verifyAudienceAndNonce_ok {identity : IdentityClaims} {idToken : Option String}
    {clientId stateNonce : String}
    (h : verifyAudienceAndNonce lib identity idToken clientId stateNonce = .ok ()) :
    let decoded := idToken.bind (decodeIdTokenClaims lib)
    effective identity.audience (decoded.bind (·.audience)) = some clientId ∧
      effective identity.nonce (decoded.bind (·.nonce)) = some stateNonce := by
  intro decoded
  simp only [verifyAudienceAndNonce, bind, Except.bind] at h
  split at h
  · cases h
  rename_i audience haud
  split at h
  · cases h
  rename_i nonce hnonce
  rw [← mergeClaim_eq haud, ← mergeClaim_eq hnonce]
  split at h
  · rename_i aud
    split at h
    · cases h
    · rename_i hne
      split at h
      · split at h
        · cases h
        · exact ⟨congrArg some (not_not.mp hne), congrArg some (not_not.mp ‹_›)⟩
      · cases h
  · cases h

/-! ## The email match -/

def verifyEmailMatch (identity : IdentityClaims) (accountRef : String)
    (sharedMailboxBypass : Bool) : Except OauthError Unit := do
  let some email := (identity.email.map Text.trim).filter (! ·.isEmpty)
    | throw (.identity "provider-side identity carries no email")
  if identity.emailVerified = some false then
    throw (.identity "provider reports the email as unverified")
  if ¬ Text.eqIgnoreAsciiCase email accountRef then
    if sharedMailboxBypass then return ()
    throw (.identity ("token identity " ++ Text.debug lib.unprintable email ++
      " does not match the configured account_ref"))

/-- An email that matches the account: it is there, it is not reported as unverified, and without
surrounding white space it is the account reference up to ASCII case, or the bypass is on. -/
structure EmailMatches (identity : IdentityClaims) (accountRef : String)
    (sharedMailboxBypass : Bool) : Prop where
  present : ∃ email, identity.email = some email ∧ Text.trim email ≠ "" ∧
    (Text.eqIgnoreAsciiCase (Text.trim email) accountRef ∨ sharedMailboxBypass)
  verified : identity.emailVerified ≠ some false

variable {lib} in
theorem verifyEmailMatch_ok {identity : IdentityClaims} {accountRef : String} {bypass : Bool} :
    verifyEmailMatch lib identity accountRef bypass = .ok () ↔
      EmailMatches identity accountRef bypass := by
  unfold verifyEmailMatch
  cases he : (identity.email.map Text.trim).filter (! ·.isEmpty) with
  | none =>
    constructor
    · intro h
      cases h
    · rintro ⟨⟨email, hemail, hne, _⟩, _⟩
      simp [hemail, Option.filter, hne] at he
  | some email =>
    obtain ⟨raw, hraw, hne, rfl⟩ : ∃ raw, identity.email = some raw ∧ Text.trim raw ≠ "" ∧
        Text.trim raw = email := by
      simp only [Option.filter_eq_some_iff, Option.map_eq_some_iff] at he
      obtain ⟨⟨raw, hraw, rfl⟩, hne⟩ := he
      exact ⟨raw, hraw, by simpa using hne, rfl⟩
    have key : EmailMatches identity accountRef bypass ↔ identity.emailVerified ≠ some false ∧
        (Text.eqIgnoreAsciiCase (Text.trim raw) accountRef ∨ bypass) := by
      refine ⟨fun ⟨⟨raw', hraw', _, hm⟩, hv⟩ => ⟨hv, ?_⟩, fun ⟨hv, hm⟩ => ⟨⟨raw, hraw, hne, hm⟩, hv⟩⟩
      cases hraw.symm.trans hraw'
      exact hm
    rw [key]
    by_cases hv : identity.emailVerified = some false
    · simp [hv, bind, Except.bind, throw, throwThe, MonadExceptOf.throw]
    · by_cases hm : Text.eqIgnoreAsciiCase (Text.trim raw) accountRef = true
      · simp [hv, hm, pure, Except.pure]
      · cases bypass <;>
          simp [hv, hm, pure, Except.pure, throw, throwThe, MonadExceptOf.throw]

/-! ## The account reference -/

/-- `str::len` counts bytes. -/
def normalizeAccountRef (raw : String) : Option String :=
  let trimmed := Text.trim raw
  if trimmed.utf8ByteSize < 3 ∨ 120 < trimmed.utf8ByteSize ∨ trimmed.toList.any Text.isWhitespace then
    none
  else some trimmed

def looksLikeEmail (value : String) : Bool :=
  match Text.splitOnce value '@' with
  | some (local_, domain) =>
    !local_.isEmpty && domain.toList.contains '.' && domain.toList.head? != some '.' &&
      domain.toList.getLast? != some '.'
  | none => false

def isMailProvider (provider : String) : Bool := provider == "gmail" || provider == "outlook"

end BackboneIntegrations.OAuth
