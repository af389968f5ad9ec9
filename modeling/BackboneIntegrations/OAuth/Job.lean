import BackboneIntegrations.OAuth.Service

/-!
# The refresh job

`refresh_oauth_credentials` and its fan-out over companies. The job reads its endpoints and
clients from its own arguments, and it ends an account on more answers than the service.
-/

open Interleave

namespace BackboneIntegrations.OAuth

structure RefreshSchedule where
  refreshWindowSeconds : Int := 600
  refreshBatchSize : Int := 100
  deriving DecidableEq, Repr

structure RefreshReport where
  refreshed : Nat := 0
  expired : Nat := 0
  skipped : Nat := 0
  deriving DecidableEq, Repr

/-- The arguments of the job, without the pool and the ports. -/
structure RefreshJob where
  registry : ProviderRegistry
  overrides : EndpointOverrides
  clients : OAuthClientConfigs
  schedule : RefreshSchedule

namespace RefreshJob

abbrev Sweep (α : Type) := Flow DbError α

/-- A statement, with `?` on its database error. -/
def sql {α : Type} (p : Prog Sig (Except DbError α)) : Sweep α := p.orFail id

def refreshForm (clientId : String) (clientSecret : Option String) (refreshToken : String) :
    TokenRequestForm where
  grantType := "refresh_token"
  code := none
  refreshToken := refreshToken
  redirectUri := none
  codeVerifier := none
  clientId := clientId
  clientSecret := clientSecret
  scope := none

/-- `expire_account`: an update without a guard on the status. -/
def expireAccount (id : Uuid) : Sweep Unit := do
  let _ ← sql (ask (.updateTx id .expire))
  sql (ask .commit)

/-- The exit that ends the account. -/
def expire (id : Uuid) (report : RefreshReport) : Sweep RefreshReport := do
  expireAccount id
  return { report with expired := report.expired + 1 }

/-- The exit that leaves the account due. -/
def skip (report : RefreshReport) : Sweep RefreshReport := do
  sql (ask .rollback)
  return { report with skipped := report.skipped + 1 }

/-- The part of `refresh_one` behind the rotate. -/
def mirror (id : Uuid) (expiresAt : Time) (report : RefreshReport) : Sweep RefreshReport := do
  let mirrored ← sql (ask (.updateTx id (.mirrorNow expiresAt)))
  if mirrored ≠ 1 then skip report
  else
    sql (ask .commit)
    return { report with refreshed := report.refreshed + 1 }

def successor (bundle : TokenBundle) (response : TokenResponse) (expiresAt : Time) :
    TokenBundle where
  accessToken := response.accessToken
  refreshToken := response.refreshToken.or bundle.refreshToken
  expiresAt := expiresAt
  scope := response.scope.or bundle.scope

/-- The part of `refresh_one` behind the provider's answer. -/
def rotateOne (companyId : Uuid) (d : DueAccount) (bundle : TokenBundle) (now : Time)
    (response : TokenResponse) (report : RefreshReport) : Sweep RefreshReport := do
  match ← expiresAt response now with
  | none => skip report
  | some expiresAt =>
    match ← Prog.answer (ask (.rotate (d.scope companyId) (successor bundle response expiresAt)
        expiresAt)) with
    | .ok _ => mirror d.id expiresAt report
    | .error e => if e.isTransport then skip report else expire d.id report

/-- The part of `refresh_one` from the store's answer on. -/
def refreshBundle (companyId : Uuid) (endpoints : ValidatedEndpoints) (client : OAuthClientConfig)
    (d : DueAccount) (report : RefreshReport) : Sweep RefreshReport := do
  match ← Prog.answer (ask (.readToken (d.scope companyId))) with
  | .error e => if e.isTransport then skip report else expire d.id report
  | .ok bundle =>
    match bundle.refreshToken with
    | none => expire d.id report
    | some refreshToken =>
      let now ← utcNow
      match ← Prog.answer (ask (.exchange endpoints.token
          (refreshForm client.clientId client.clientSecret refreshToken))) with
      | .ok response => rotateOne companyId d bundle now response report
      | .error e => if e.isInvalidGrant then expire d.id report else skip report

variable (lib : Crates) (job : RefreshJob)

def refreshOne (companyId : Uuid) (d : DueAccount) (report : RefreshReport) :
    Sweep RefreshReport :=
  match ValidatedEndpoints.resolve lib.toUrlCrate job.registry d.provider job.overrides with
  | .error _ => skip report
  | .ok endpoints =>
    match job.clients.get d.provider with
    | none => skip report
    | some client => refreshBundle companyId endpoints client d report

/-- The `for` loop of the sweep, with the number of rounds that are left. -/
def refreshLoop (companyId : Uuid) :
    Nat → List Uuid → RefreshReport → Sweep RefreshReport
  | 0, _, report => return report
  | left + 1, attempted, report => do
    sql (ask .begin)
    match ← sql (ask (.claimDue job.schedule.refreshWindowSeconds attempted)) with
    | none =>
      sql (ask .rollback)
      return report
    | some d =>
      let report ← job.refreshOne lib companyId d report
      refreshLoop companyId left (attempted ++ [d.id]) report

def refreshOauthCredentials (companyId : Uuid) : Sweep RefreshReport :=
  job.refreshLoop lib companyId job.schedule.refreshBatchSize.toNat [] {}

/-- `refresh_oauth_credentials_for_companies`. A sweep that failed drops its transaction. -/
def refreshForCompanies : List Uuid → Prog Sig (List (Uuid × Except DbError RefreshReport))
  | [] => return []
  | companyId :: companies => do
    let r ← (job.refreshOauthCredentials lib companyId).run
    ask .drop
    let out ← refreshForCompanies companies
    return (companyId, r) :: out

end RefreshJob

end BackboneIntegrations.OAuth
