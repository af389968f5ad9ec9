import BackboneIntegrations.OAuth.State
import BackboneIntegrations.Interleave.Txs

/-!
# The OAuth service

`authorize`, `complete`, `disconnect`, `status`, `refresh_due` and `ensure_fresh`, with the
statements they run and the ports they call.
-/

open Interleave

namespace BackboneIntegrations.OAuth

/-! ## Rows -/

inductive IntegrationAccountStatus where
  | pending | active | expired | revoked
  deriving DecidableEq, Repr

/-- `status::text`. -/
def IntegrationAccountStatus.asStr : IntegrationAccountStatus → String
  | .pending => "pending"
  | .active => "active"
  | .expired => "expired"
  | .revoked => "revoked"

/-- The columns of a row of `integration_accounts`, next to its id. -/
structure Account where
  provider : String
  accountRef : String
  status : IntegrationAccountStatus
  scopes : String
  pkceVerifier : Option String
  expiresAt : Option Time
  lastRefreshedAt : Option Time
  deriving DecidableEq, Repr

/-- A row as the flow reads it. It is also the whole of `AccountStatus`. -/
structure AccountRow where
  id : Uuid
  provider : String
  accountRef : String
  status : IntegrationAccountStatus
  scopes : String
  expiresAt : Option Time
  lastRefreshedAt : Option Time
  deriving DecidableEq, Repr

/-- What `authorize` inserts: the status is the literal of its `INSERT`. -/
structure NewAccount where
  id : Uuid
  provider : String
  accountRef : String
  scopes : String
  pkceVerifier : Option String
  deriving DecidableEq, Repr

/-- One due account, as claimed. -/
structure DueAccount where
  id : Uuid
  provider : String
  accountRef : String
  deriving DecidableEq, Repr

/-- The key of a credential in the store. -/
structure CredentialScope where
  companyId : Uuid
  provider : String
  accountRef : String
  deriving DecidableEq, Repr

def AccountRow.scope (r : AccountRow) (companyId : Uuid) : CredentialScope :=
  ⟨companyId, r.provider, r.accountRef⟩

def DueAccount.scope (d : DueAccount) (companyId : Uuid) : CredentialScope :=
  ⟨companyId, d.provider, d.accountRef⟩

/-! ## The updates of an account row -/

/-- The two `UPDATE`s that commit by themselves. Each is guarded by the status in its `WHERE`. -/
inductive StatusUpdate where
  | activate (scopes : String) (expiresAt lastRefreshedAt : Time)
  | revoke
  deriving DecidableEq, Repr

namespace StatusUpdate

def guard : StatusUpdate → IntegrationAccountStatus → Bool
  | activate .., status => status == .pending
  | revoke, status => status == .pending || status == .active

def set : StatusUpdate → Account → Account
  | activate scopes expiresAt lastRefreshedAt, r =>
    { r with status := .active, scopes, expiresAt, lastRefreshedAt, pkceVerifier := none }
  | revoke, r => { r with status := .revoked, pkceVerifier := none }

end StatusUpdate

/-- The `UPDATE`s of the refresh paths, each inside the transaction that claimed the row.
`expireActive` and `mirror` are the service's, `expire` and `mirrorNow` the job's. -/
inductive ClaimedUpdate where
  | expireActive
  | expire
  | resync (expiresAt : Time)
  | mirror (expiresAt : Time) (scopes : Option String) (lastRefreshedAt : Time)
  | mirrorNow (expiresAt : Time)
  deriving DecidableEq, Repr

namespace ClaimedUpdate

def guard : ClaimedUpdate → IntegrationAccountStatus → Bool
  | expireActive, status => status == .active
  | expire, _ | resync _, _ | mirror .., _ | mirrorNow _, _ => true

/-- `now` is SQL's `now()`: when the transaction started. -/
def set (now : Time) : ClaimedUpdate → Account → Account
  | expireActive, r => { r with status := .expired, pkceVerifier := none }
  | expire, r => { r with status := .expired }
  | resync expiresAt, r => { r with expiresAt }
  | mirror expiresAt scopes lastRefreshedAt, r =>
    { r with expiresAt, scopes := scopes.getD r.scopes, lastRefreshedAt }
  | mirrorNow expiresAt, r => { r with expiresAt, lastRefreshedAt := now }

/-- The two that end an account. -/
def Expires : ClaimedUpdate → Prop
  | expireActive | expire => True
  | resync _ | mirror .. | mirrorNow _ => False

instance : DecidablePred Expires := fun u => by
  cases u <;> unfold Expires <;> infer_instance

end ClaimedUpdate

/-! ## Operations -/

/-- A `DELETE` is two kinds of steps: it takes its snapshot, and then it waits for each row. -/
inductive Op where
  | utcNow
  | newUuid
  | randomBytes (n : Nat)
  | panic
  | fetchAccount (id : Uuid)
  | fetchVerifier (id : Uuid)
  | begin
  | deleteSnapshot (provider accountRef : String)
  | deleteRow (id : Uuid)
  | insertAccount (row : NewAccount)
  | claimDue (window : Int) (attempted : List Uuid)
  | claimById (id : Uuid)
  | updateTx (id : Uuid) (u : ClaimedUpdate)
  | commit
  | rollback
  | drop
  | update (id : Uuid) (u : StatusUpdate)
  | exchange (endpoint : ValidatedEndpoint) (form : TokenRequestForm)
  | fetchIdentity (endpoint : ValidatedEndpoint) (accessToken : String)
  | issue (scope : CredentialScope) (purpose : String) (bundle : TokenBundle) (expiresAt : Time)
  | readToken (scope : CredentialScope)
  | rotate (scope : CredentialScope) (bundle : TokenBundle) (expiresAt : Time)
  | revoke (scope : CredentialScope)
  deriving DecidableEq

/-- An `UPDATE` or `DELETE` answers with its number of rows, a panic never answers. -/
abbrev Ans : Op → Type
  | .utcNow => Time
  | .newUuid => Uuid
  | .randomBytes _ => Bytes
  | .panic => Empty
  | .fetchAccount _ => Except DbError (Option AccountRow)
  | .fetchVerifier _ => Except DbError (Option (Option String))
  | .begin => Except DbError Unit
  | .deleteSnapshot .. => Except DbError (List Uuid)
  | .deleteRow _ => Except DbError Nat
  | .insertAccount _ => Except DbError Unit
  | .claimDue .. => Except DbError (Option DueAccount)
  | .claimById _ => Except DbError (Option DueAccount)
  | .updateTx .. => Except DbError Nat
  | .commit => Except DbError Unit
  | .rollback => Except DbError Unit
  | .drop => Unit
  | .update .. => Except DbError Nat
  | .exchange .. => Except TransportFailure TokenResponse
  | .fetchIdentity .. => Except TransportFailure IdentityClaims
  | .issue .. => Except OAuthCredentialFailure Uuid
  | .readToken _ => Except OAuthCredentialFailure TokenBundle
  | .rotate .. => Except OAuthCredentialFailure Uuid
  | .revoke _ => Except OAuthCredentialFailure Unit

abbrev Sig : Signature := ⟨Op, Ans⟩

abbrev Flow (ε α : Type) := ExceptT ε (Prog Sig) α

abbrev ask (op : Op) : Prog Sig (Ans op) := Prog.ask (S := Sig) op

section

variable {ε α : Type}

/-- A statement, with `?` on its database error. -/
def sql (p : Prog Sig (Except DbError α)) : Flow OauthError α := p.orFail .db

def utcNow : Flow ε Time := Prog.answer (ask .utcNow)

/-- The value, or the panic of `chrono` where there is none. -/
def orPanic : Option α → Flow ε α
  | some a => pure a
  | none => Prog.answer (.call .panic fun e => nomatch (e : Empty))

/-- `TokenResponse::expires_at`. -/
def expiresAt (response : TokenResponse) (now : Time) : Flow ε (Option Time) :=
  match response.lifetime with
  | none => pure none
  | some secs => some <$> orPanic (addSeconds now secs)

end

/-! ## The service -/

structure IntegrationsOauthService where
  registry : ProviderRegistry
  endpoints : Table String ValidatedEndpoints
  clients : OAuthClientConfigs
  signer : StateSigner
  publicBase : String
  /-- In seconds, as a `chrono` duration can hold them. -/
  refreshWindow : Int
  window_range : 0 ≤ refreshWindow ∧ refreshWindow ≤ maxDurationSeconds
  refreshBatchSize : Nat
  batch_pos : 0 < refreshBatchSize
  sharedMailboxBypass : Bool

variable (lib : Crates) (svc : IntegrationsOauthService)

namespace IntegrationsOauthService

def callbackPath := "/api/v1/integrations/oauth/callback"

def endpointsFor (provider : String) : Except OauthError (ValidatedEndpoints × String) := do
  let some resolved := svc.endpoints.lookup provider
    | throw (.providerUnconfigured ("unknown provider " ++ Text.debug lib.unprintable provider))
  let some clientId :=
      ((svc.clients.get provider).map (·.clientId)).filter (! Text.isBlank ·)
    | throw (.providerUnconfigured ("no OAuth client configured for " ++ provider))
  return (resolved, clientId)

def redirectUri : String := svc.publicBase ++ callbackPath

/-- The secret of the provider's client, if it has one. -/
def clientSecret (provider : String) : Option String :=
  (svc.clients.get provider).bind (·.clientSecret)

def fetchAccount (id : Uuid) : Flow OauthError (Option AccountRow) := sql (ask (.fetchAccount id))

/-- Opens the transaction and binds the ambient org scope on it. -/
def begin : Flow OauthError Unit := sql (ask .begin)
def commit : Flow OauthError Unit := sql (ask .commit)
def rollback : Flow OauthError Unit := sql (ask .rollback)
def updateTx (id : Uuid) (u : ClaimedUpdate) : Flow OauthError Nat := sql (ask (.updateTx id u))

/-! ### `authorize` -/

structure AuthorizeRequest where
  provider : String
  accountRef : String
  scopes : Option String
  deriving DecidableEq, Repr

structure AuthorizeResponse where
  accountId : Uuid
  authorizeUrl : String
  stateExpiresIn : Int
  deriving DecidableEq, Repr

/-- What `authorize` works with once its input is checked. -/
structure Admitted where
  provider : String
  adapter : ProviderAdapter
  endpoints : ValidatedEndpoints
  clientId : String
  accountRef : String
  scopes : String

/-- The checks of `authorize`, before its first statement. -/
def admitRequest (req : AuthorizeRequest) : Except OauthError Admitted := do
  let provider := Text.trim req.provider
  let some adapter := svc.registry.lookup provider
    | throw (.invalid ("unknown provider " ++ Text.debug lib.unprintable provider))
  let (endpoints, clientId) ← svc.endpointsFor lib provider
  let some accountRef := normalizeAccountRef req.accountRef
    | throw (.invalid "account_ref must be 3..=120 chars without whitespace")
  if isMailProvider provider ∧ ¬ looksLikeEmail accountRef then
    throw (.invalid ("account_ref for " ++ provider ++
      " must be the mailbox address (a valid email)"))
  let scopes := ((req.scopes.map Text.trim).filter (! ·.isEmpty)).getD adapter.defaultScopes
  if 2048 < scopes.utf8ByteSize ∨ scopes.toList.any Text.isControl then
    throw (.invalid "scopes must be <= 2048 chars, no control characters")
  return ⟨provider, adapter, endpoints, clientId, accountRef, scopes⟩

/-- `mint_pkce_verifier` and `mint_nonce`: fresh random bytes as text. -/
def mintText (n : Nat) : Flow OauthError String := do
  return lib.encode (← Prog.answer (ask (.randomBytes n)))

def deleteRows : List Uuid → Flow OauthError Unit
  | [] => return ()
  | id :: ids => do
    let _ ← sql (ask (.deleteRow id))
    deleteRows ids

/-- The transaction of `authorize`: it replaces the rows of the scope by a pending one. -/
def replaceRow (row : NewAccount) : Flow OauthError Unit := do
  begin
  let ids ← sql (ask (.deleteSnapshot row.provider row.accountRef))
  deleteRows ids
  sql (ask (.insertAccount row))
  commit

def authorizePairs (a : Admitted) (verifier : Option String) (nonce state : String) :
    List (String × String) :=
  [("response_type", "code"), ("client_id", a.clientId), ("redirect_uri", svc.redirectUri),
    ("scope", a.scopes), ("access_type", "offline"), ("prompt", "consent")] ++
  (match verifier with
    | some v => [("code_challenge", pkceChallenge lib v), ("code_challenge_method", "S256")]
    | none => []) ++
  [("nonce", nonce), ("state", state)]

/-- The part of `authorize` behind the PKCE verifier. -/
def authorizeAdmitted (a : Admitted) (verifier : Option String) :
    Flow OauthError AuthorizeResponse := do
  let accountId ← Prog.answer (ask .newUuid)
  replaceRow ⟨accountId, a.provider, a.accountRef, a.scopes, verifier⟩
  let nonce ← mintText lib 16
  let now ← utcNow
  let state ← Prog.ofExcept
    (svc.signer.mint lib ⟨accountId, a.provider, nonce, timestamp now + stateTtlSeconds⟩)
  match lib.parse (lib.asStr a.endpoints.authorize.url) with
  | .error e => throw (.invalid ("authorize endpoint: " ++ e))
  | .ok url =>
    return ⟨accountId, lib.appendPairs url (svc.authorizePairs lib a verifier nonce state),
      stateTtlSeconds⟩

def authorize (req : AuthorizeRequest) : Flow OauthError AuthorizeResponse := do
  let a ← Prog.ofExcept (svc.admitRequest lib req)
  let verifier ← if a.adapter.pkceS256 then some <$> mintText lib 48 else pure none
  svc.authorizeAdmitted lib a verifier

/-! ### `complete` -/

structure CompleteRequest where
  code : String
  state : String
  deriving DecidableEq, Repr

structure CompleteOutcome where
  accountId : Uuid
  provider : String
  accountRef : String
  status : String
  scopes : String
  expiresAt : Time
  deriving DecidableEq, Repr

/-- `StateSigner::verify`. -/
def verify (token : String) : Flow OauthError OAuthState := do
  let state ← Prog.ofExcept (svc.signer.binding lib token)
  let now ← utcNow
  if state.exp ≤ timestamp now then
    throw (.state "state expired")
  return state

/-- What `complete` holds once the identity checks have passed. -/
structure Grant where
  state : OAuthState
  account : AccountRow
  adapter : ProviderAdapter
  response : TokenResponse
  now : Time
  expiresAt : Time

/-- The part of `complete` before the exchange: the account and what it is configured with. -/
def pendingAccount (state : OAuthState) :
    Flow OauthError (AccountRow × ProviderAdapter × ValidatedEndpoints × String) := do
  let some account ← fetchAccount state.accountId | throw .notFound
  if account.provider ≠ state.provider then
    throw (.state "state provider does not match the account")
  if account.status ≠ .pending then
    throw (.state ("account is " ++ account.status.asStr ++
      " (only a pending authorization can complete)"))
  let some adapter := svc.registry.lookup account.provider
    | throw (.providerUnconfigured account.provider)
  let (endpoints, clientId) ← Prog.ofExcept (svc.endpointsFor lib account.provider)
  return (account, adapter, endpoints, clientId)

/-- The PKCE verifier of the pending row. -/
def storedVerifier (accountId : Uuid) : Flow OauthError String := do
  let row ← sql (ask (.fetchVerifier accountId))
  let some stored := row.join.filter (! ·.isEmpty)
    | throw (.state "pending authorization has no PKCE verifier")
  return stored

def exchangeForm (req : CompleteRequest) (provider : String) (verifier : Option String)
    (clientId : String) : TokenRequestForm where
  grantType := "authorization_code"
  code := req.code
  refreshToken := none
  redirectUri := svc.redirectUri
  codeVerifier := verifier
  clientId := clientId
  clientSecret := svc.clientSecret provider
  scope := none

/-- The part of `complete` from the exchange to the identity checks. -/
def identify (req : CompleteRequest) (state : OAuthState) (account : AccountRow)
    (adapter : ProviderAdapter) (endpoints : ValidatedEndpoints) (clientId : String)
    (verifier : Option String) : Flow OauthError Grant := do
  let response ← Prog.orFail (.transport ·.display)
    (ask (.exchange endpoints.token (svc.exchangeForm req account.provider verifier clientId)))
  let now ← utcNow
  let some expiresAt ← expiresAt response now
    | throw (.unstoreable
        "provider returned no expires_in; a permanent token is not a storable value")
  let identity ← Prog.orFail (.transport ·.display)
    (ask (.fetchIdentity endpoints.userinfo response.accessToken))
  Prog.ofExcept (verifyAudienceAndNonce lib identity response.idToken clientId state.nonce)
  Prog.ofExcept (verifyEmailMatch lib identity account.accountRef svc.sharedMailboxBypass)
  return ⟨state, account, adapter, response, now, expiresAt⟩

/-- The part of `complete` before its store writes. -/
def gauntlet (req : CompleteRequest) : Flow OauthError Grant := do
  let state ← svc.verify lib req.state
  let (account, adapter, endpoints, clientId) ← svc.pendingAccount lib state
  let verifier ←
    if adapter.pkceS256 then some <$> storedVerifier state.accountId else pure none
  svc.identify lib req state account adapter endpoints clientId verifier

def Grant.scope (g : Grant) (companyId : Uuid) : CredentialScope := g.account.scope companyId

/-- The bundle that `complete` stores. -/
def Grant.bundle (g : Grant) (carriedRefresh : Option String) : TokenBundle where
  accessToken := g.response.accessToken
  refreshToken := carriedRefresh
  expiresAt := g.expiresAt
  scope := g.response.scope.or (some g.adapter.defaultScopes)

/-- The refresh token of the response, else the one that the store still holds. -/
def carriedRefresh (companyId : Uuid) (g : Grant) : Flow OauthError (Option String) :=
  match g.response.refreshToken with
  | some r => return some r
  | none => do
    match ← Prog.answer (ask (.readToken (g.scope companyId))) with
    | .ok prior => return prior.refreshToken
    | .error _ => return none

/-- The store writes of `complete`: an issue, or a rotate where a credential is there already. -/
def storeBundle (companyId : Uuid) (g : Grant) (refresh : Option String) : Flow OauthError Unit := do
  match ← Prog.answer (ask (.issue (g.scope companyId) purposeOauthToken (g.bundle refresh)
      g.expiresAt)) with
  | .ok _ => return ()
  | .error f =>
    if f.code = OAuthCredentialFailure.codeDuplicateActive then
      let _ ← Prog.orFail (.store ·.display)
        (ask (.rotate (g.scope companyId) (g.bundle refresh) g.expiresAt))
    else throw (.store f.display)

/-- The compare-and-set that ends `complete`. -/
def activate (g : Grant) : Flow OauthError CompleteOutcome := do
  let scopes := g.response.scope.getD ""
  let updated ← sql (ask (.update g.state.accountId (.activate scopes g.expiresAt g.now)))
  if updated ≠ 1 then
    throw (.state "authorization was completed concurrently")
  return ⟨g.state.accountId, g.account.provider, g.account.accountRef, "active", scopes, g.expiresAt⟩

def complete (companyId : Uuid) (req : CompleteRequest) : Flow OauthError CompleteOutcome := do
  let g ← svc.gauntlet lib req
  let refresh ← carriedRefresh companyId g
  storeBundle companyId g refresh
  activate g

/-! ### `disconnect` and `status` -/

def disconnect (companyId accountId : Uuid) : Flow OauthError Unit := do
  let some account ← fetchAccount accountId | throw .notFound
  if account.status = .revoked then return ()
  match ← Prog.answer (ask (.revoke (account.scope companyId))) with
  | .ok () => pure ()
  | .error f =>
    if f.code = OAuthCredentialFailure.codeNotFound then pure ()
    else throw (.store f.display)
  let _ ← sql (ask (.update accountId .revoke))

def status (accountId : Uuid) : Flow OauthError AccountRow := do
  let some account ← fetchAccount accountId | throw .notFound
  return account

/-! ### The refresh paths -/

structure RefreshSummary where
  refreshed : Nat := 0
  resynced : Nat := 0
  expired : Nat := 0
  failures : Nat := 0
  deriving DecidableEq, Repr

/-- The exit that ends the account and commits. -/
def expireClaimed (id : Uuid) (summary : RefreshSummary) : Flow OauthError RefreshSummary := do
  let _ ← updateTx id .expireActive
  commit
  return { summary with expired := summary.expired + 1 }

/-- The exit that leaves the account due. -/
def leaveDue (summary : RefreshSummary) : Flow OauthError RefreshSummary := do
  rollback
  return { summary with failures := summary.failures + 1 }

/-- The codes for which `refresh_claimed` gives the credential up. -/
def isDead (f : OAuthCredentialFailure) : Bool :=
  f.code == OAuthCredentialFailure.codeNotFound || f.code == OAuthCredentialFailure.codeNotActive ||
    f.code == OAuthCredentialFailure.codeExpired

def refreshGrantForm (provider clientId refreshToken : String) : TokenRequestForm where
  grantType := "refresh_token"
  code := none
  refreshToken := refreshToken
  redirectUri := none
  codeVerifier := none
  clientId := clientId
  clientSecret := svc.clientSecret provider
  scope := none

/-- The part of `refresh_claimed` behind the provider's answer. -/
def rotateClaimed (companyId : Uuid) (d : DueAccount) (prior : TokenBundle)
    (response : TokenResponse) (summary : RefreshSummary) : Flow OauthError RefreshSummary := do
  let now ← utcNow
  match ← expiresAt response now with
  | none => leaveDue summary
  | some expiresAt =>
    let refresh := response.refreshToken.or prior.refreshToken
    let scope := response.scope.or prior.scope
    let _ ← Prog.orFail (.store ·.display) (ask (.rotate (d.scope companyId)
      ⟨response.accessToken, refresh, expiresAt, scope⟩ expiresAt))
    let _ ← updateTx d.id (.mirror expiresAt scope now)
    commit
    return { summary with refreshed := summary.refreshed + 1 }

/-- The part of `refresh_claimed` for a bundle inside the window. -/
def refreshPrior (companyId : Uuid) (d : DueAccount) (prior : TokenBundle)
    (summary : RefreshSummary) : Flow OauthError RefreshSummary := do
  match prior.refreshToken with
  | none => expireClaimed d.id summary
  | some refreshToken =>
    match svc.endpointsFor lib d.provider with
    | .error _ => leaveDue summary
    | .ok (endpoints, clientId) =>
      match ← Prog.answer (ask (.exchange endpoints.token
          (svc.refreshGrantForm d.provider clientId refreshToken))) with
      | .ok response => rotateClaimed companyId d prior response summary
      | .error f => if f.isInvalidGrant then expireClaimed d.id summary else leaveDue summary

def refreshClaimed (companyId : Uuid) (d : DueAccount) (summary : RefreshSummary) :
    Flow OauthError RefreshSummary := do
  match ← Prog.answer (ask (.readToken (d.scope companyId))) with
  | .error f => if isDead f then expireClaimed d.id summary else leaveDue summary
  | .ok prior =>
    let freshUntil ← orPanic (addSeconds prior.expiresAt (-svc.refreshWindow))
    let now ← utcNow
    if now ≤ freshUntil then
      let _ ← updateTx d.id (.resync prior.expiresAt)
      commit
      return { summary with resynced := summary.resynced + 1 }
    else svc.refreshPrior lib companyId d prior summary

/-- The `for` loop of `refresh_due`, with the number of rounds that are left. -/
def refreshDueLoop (companyId : Uuid) : Nat → RefreshSummary → Flow OauthError RefreshSummary
  | 0, summary => return summary
  | left + 1, summary => do
    begin
    match ← sql (ask (.claimDue svc.refreshWindow [])) with
    | none =>
      commit
      return summary
    | some d =>
      let summary ← svc.refreshClaimed lib companyId d summary
      refreshDueLoop companyId left summary

def refreshDue (companyId : Uuid) : Flow OauthError RefreshSummary :=
  svc.refreshDueLoop lib companyId svc.refreshBatchSize {}

/-- `expires_at - refresh_window < Utc::now()`. -/
def isDue (expiresAt : Option Time) : Flow OauthError Bool :=
  match expiresAt with
  | none => return false
  | some e => do
    let freshUntil ← orPanic (addSeconds e (-svc.refreshWindow))
    let now ← utcNow
    return decide (freshUntil < now)

/-- The transaction of `ensure_fresh`. -/
def refreshNow (companyId accountId : Uuid) : Flow OauthError Unit := do
  begin
  match ← sql (ask (.claimById accountId)) with
  | some d =>
    let _ ← svc.refreshClaimed lib companyId d {}
  | none => commit

def ensureFresh (companyId accountId : Uuid) : Flow OauthError AccountRow := do
  let some account ← fetchAccount accountId | throw .notFound
  if account.status ≠ .active then return account
  if ← svc.isDue account.expiresAt then
    svc.refreshNow lib companyId accountId
  status accountId

end IntegrationsOauthService

end BackboneIntegrations.OAuth
