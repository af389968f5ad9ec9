import BackboneIntegrations.OAuth.Job

/-!
# The hub: the accounts table, the credential store and the clock

What each statement does to `integration_accounts`, as Postgres does it under READ
COMMITTED. Any statement and any port can also fail, and then it changes nothing. The store
and the provider answer as they like here: what a result relies on is its own condition.
-/

open Interleave

namespace BackboneIntegrations.OAuth

/-- A write that an open transaction keeps until its commit. `now` is when it started. -/
inductive Write where
  | delete (id : Uuid)
  | insert (row : NewAccount)
  | update (id : Uuid) (u : ClaimedUpdate) (now : Time)
  deriving DecidableEq

/-- One credential of the store. `live` means not withdrawn and not replaced. -/
structure Credential where
  scope : CredentialScope
  purpose : String
  bundle : TokenBundle
  expiresAt : Time
  live : Bool
  deriving DecidableEq

structure Hub where
  accounts : Table Uuid Account
  txs : Txs Uuid Write
  /-- When the transaction of a thread started. -/
  began : Tid → Time
  credentials : List Credential
  /-- The refresh tokens that the provider does not take any more. -/
  dead : List String
  /-- The ids that were given out. -/
  used : List Uuid
  clock : Time

def NewAccount.toAccount (n : NewAccount) : Account where
  provider := n.provider
  accountRef := n.accountRef
  status := .pending
  scopes := n.scopes
  pkceVerifier := n.pkceVerifier
  expiresAt := none
  lastRefreshedAt := none

def Account.toRow (r : Account) (id : Uuid) : AccountRow :=
  ⟨id, r.provider, r.accountRef, r.status, r.scopes, r.expiresAt, r.lastRefreshedAt⟩

def Account.toDue (r : Account) (id : Uuid) : DueAccount := ⟨id, r.provider, r.accountRef⟩

def Account.scope (r : Account) (companyId : Uuid) : CredentialScope :=
  ⟨companyId, r.provider, r.accountRef⟩

namespace Hub

/-! ## The accounts table -/

def apply (w : Hub) : Write → Hub
  | .delete id => { w with accounts := w.accounts.erase id }
  | .insert row => { w with accounts := w.accounts.insert row.id row.toAccount }
  | .update id u now =>
    match w.accounts.lookup id with
    | some r => { w with accounts := w.accounts.insert id (u.set now r) }
    | none => w

def commit (w : Hub) (t : Tid) : Hub :=
  let w' := (w.txs.writes t).foldl apply w
  { w' with txs := w.txs.clear t }

/-- The row that a claimed `UPDATE` matches now. -/
def claimedTarget (w : Hub) (id : Uuid) (u : ClaimedUpdate) : Option Account :=
  (w.accounts.lookup id).filter fun r => u.guard r.status

/-- The row that a status `UPDATE` matches now. -/
def statusTarget (w : Hub) (id : Uuid) (u : StatusUpdate) : Option Account :=
  (w.accounts.lookup id).filter fun r => u.guard r.status

def setStatus (w : Hub) (id : Uuid) (u : StatusUpdate) (r : Account) : Hub :=
  { w with accounts := w.accounts.insert id (u.set r) }

/-- The ids of the rows of a scope. -/
def matching (w : Hub) (provider accountRef : String) : List Uuid :=
  (w.accounts.entries.filter fun e => e.2.provider = provider ∧ e.2.accountRef = accountRef).map
    (·.1)

/-- The predicate of the sweep's claim, with `SKIP LOCKED`. -/
def Due (w : Hub) (t : Tid) (window : Int) (attempted : List Uuid) (id : Uuid) (r : Account) :
    Prop :=
  r.status = .active ∧ (∃ x ∈ r.expiresAt, x < w.began t + window * microsPerSecond) ∧
    id ∉ attempted ∧ w.txs.FreeFor t id

instance (w : Hub) (t : Tid) (window : Int) (attempted : List Uuid) (id : Uuid) (r : Account) :
    Decidable (w.Due t window attempted id r) :=
  inferInstanceAs (Decidable (_ ∧ _ ∧ _ ∧ _))

/-- `ORDER BY expires_at`: no other due row expires before this one. -/
def Soonest (w : Hub) (t : Tid) (window : Int) (attempted : List Uuid) (r : Account) : Prop :=
  ∀ e ∈ w.accounts.entries, w.Due t window attempted e.1 e.2 →
    ∀ x ∈ r.expiresAt, ∀ y ∈ e.2.expiresAt, x ≤ y

instance (w : Hub) (t : Tid) (window : Int) (attempted : List Uuid) (r : Account) :
    Decidable (w.Soonest t window attempted r) :=
  inferInstanceAs (Decidable (∀ e ∈ w.accounts.entries, w.Due t window attempted e.1 e.2 →
    ∀ x ∈ r.expiresAt, ∀ y ∈ e.2.expiresAt, x ≤ y))

def lock (w : Hub) (t : Tid) (id : Uuid) : Hub := { w with txs := w.txs.lock t id }

def queue (w : Hub) (t : Tid) (wr : Write) : Hub := { w with txs := w.txs.push t wr }

def release (w : Hub) (t : Tid) : Hub := { w with txs := w.txs.clear t }

/-! ## The credential store -/

end Hub

def Credential.IsCurrent (c : Credential) (scope : CredentialScope) : Prop :=
  c.scope = scope ∧ c.purpose = purposeOauthToken ∧ c.live

instance (c : Credential) (scope : CredentialScope) : Decidable (c.IsCurrent scope) :=
  inferInstanceAs (Decidable (_ ∧ _ ∧ _))

namespace Hub

def current (w : Hub) (scope : CredentialScope) : Option Credential :=
  w.credentials.find? (·.IsCurrent scope)

/-- The store after it withdrew every current credential of the scope. -/
def withdraw (w : Hub) (scope : CredentialScope) : Hub :=
  { w with credentials := w.credentials.map fun c =>
      if c.IsCurrent scope then { c with live := false } else c }

def store (w : Hub) (scope : CredentialScope) (purpose : String) (bundle : TokenBundle)
    (expiresAt : Time) : Hub :=
  { w with credentials := ⟨scope, purpose, bundle, expiresAt, true⟩ :: w.credentials }

/-! ## Steps -/

/-- The world after thread `t` got the answer, or `none` where the answer cannot be. -/
def next (t : Tid) : (op : Op) → Ans op → Hub → Option Hub
  | .utcNow, now, w => if now = w.clock then some w else none
  | .newUuid, id, w => if id ∈ w.used then none else some { w with used := id :: w.used }
  | .randomBytes n, bytes, w => if bytes.length = n then some w else none
  | .panic, e, _ => nomatch e
  | .fetchAccount id, .ok r, w =>
    if r = (w.accounts.lookup id).map (·.toRow id) then some w else none
  | .fetchVerifier id, .ok v, w =>
    if v = (w.accounts.lookup id).map (·.pkceVerifier) then some w else none
  | .begin, .ok (), w => some { w with began := Function.update w.began t w.clock }
  | .deleteSnapshot provider accountRef, .ok ids, w =>
    if ids.Perm (w.matching provider accountRef) then some w else none
  | .deleteRow id, .ok n, w =>
    match w.accounts.lookup id with
    | some _ =>
      if n = 1 ∧ w.txs.FreeFor t id then some ((w.lock t id).queue t (.delete id)) else none
    | none => if n = 0 then some w else none
  | .insertAccount row, .ok (), w =>
    if w.accounts.lookup row.id = none then some (w.queue t (.insert row)) else none
  | .claimDue window attempted, .ok none, w =>
    if ∀ e ∈ w.accounts.entries, ¬ w.Due t window attempted e.1 e.2 then some w else none
  | .claimDue window attempted, .ok (some d), w =>
    match w.accounts.lookup d.id with
    | some r =>
      if d = r.toDue d.id ∧ w.Due t window attempted d.id r ∧ w.Soonest t window attempted r then
        some (w.lock t d.id)
      else none
    | none => none
  | .claimById id, .ok none, w =>
    match w.accounts.lookup id with
    | some r => if r.status = .active ∧ w.txs.FreeFor t id then none else some w
    | none => some w
  | .claimById id, .ok (some d), w =>
    match w.accounts.lookup id with
    | some r =>
      if d = r.toDue id ∧ r.status = .active ∧ w.txs.FreeFor t id then some (w.lock t id) else none
    | none => none
  | .updateTx id u, .ok n, w =>
    match w.claimedTarget id u with
    | some _ =>
      if n = 1 ∧ w.txs.FreeFor t id then
        some ((w.lock t id).queue t (.update id u (w.began t)))
      else none
    | none => if n = 0 then some w else none
  | .commit, .ok (), w => some (w.commit t)
  | .rollback, .ok (), w => some (w.release t)
  | .drop, (), w => some (w.release t)
  | .update id u, .ok n, w =>
    match w.statusTarget id u with
    | some r => if n = 1 ∧ w.txs.holder id = none then some (w.setStatus id u r) else none
    | none => if n = 0 then some w else none
  | .exchange .., _, w => some w
  | .fetchIdentity .., _, w => some w
  | .issue scope purpose bundle expiresAt, .ok _, w => some (w.store scope purpose bundle expiresAt)
  | .readToken _, _, w => some w
  | .rotate scope bundle expiresAt, .ok _, w =>
    some ((w.withdraw scope).store scope purposeOauthToken bundle expiresAt)
  | .revoke scope, .ok (), w => some (w.withdraw scope)
  | .fetchAccount _, .error _, w | .fetchVerifier _, .error _, w | .begin, .error _, w
  | .deleteSnapshot .., .error _, w | .deleteRow _, .error _, w | .insertAccount _, .error _, w
  | .claimDue .., .error _, w | .claimById _, .error _, w | .updateTx .., .error _, w
  | .commit, .error _, w | .rollback, .error _, w | .update .., .error _, w
  | .issue .., .error _, w | .rotate .., .error _, w | .revoke _, .error _, w => some w

end Hub

/-! ## What a result can rely on -/

/-- The answer of a statement that did not fail. The ports are free to. -/
def Answered : (op : Op) → Ans op → Bool
  | .fetchAccount _, .error _ | .fetchVerifier _, .error _ | .begin, .error _
  | .deleteSnapshot .., .error _ | .deleteRow _, .error _ | .insertAccount _, .error _
  | .claimDue .., .error _ | .claimById _, .error _ | .updateTx .., .error _ | .commit, .error _
  | .rollback, .error _ | .update .., .error _ => false
  | _, _ => true

/-- The answers that the credential port documents: `issue` refuses a second credential,
`read_token` gives the current unexpired bundle, `rotate` replaces a current credential, and
`revoke` says `not_found` only where there never was one. -/
def Hub.StorePort (w : Hub) : (op : Op) → Ans op → Bool
  | .issue scope .., .ok _ => (w.current scope).isNone
  | .readToken scope, .ok b => (w.current scope).any fun c => c.bundle == b && w.clock < c.expiresAt
  | .readToken scope, .error f =>
    if f.code == OAuthCredentialFailure.codeExpired then
      (w.current scope).any fun c => c.expiresAt ≤ w.clock
    else if f.code == OAuthCredentialFailure.codeNotFound ||
        f.code == OAuthCredentialFailure.codeNotActive then
      (w.current scope).isNone
    else true
  | .rotate scope .., .ok _ => (w.current scope).isSome
  | .revoke scope, .error f =>
    f.code != OAuthCredentialFailure.codeNotFound || w.credentials.all (·.scope != scope)
  | _, _ => true

/-! ## The system -/

inductive Call where
  | authorize (req : IntegrationsOauthService.AuthorizeRequest)
  | complete (companyId : Uuid) (req : IntegrationsOauthService.CompleteRequest)
  | disconnect (companyId accountId : Uuid)
  | status (accountId : Uuid)
  | refreshDue (companyId : Uuid)
  | ensureFresh (companyId accountId : Uuid)
  | refreshOauthCredentials (job : RefreshJob) (companyId : Uuid)
  | refreshForCompanies (job : RefreshJob) (companies : List Uuid)

/-- What happens around the calls: time passes, and the provider gives up a refresh token. -/
inductive Env where
  | tick (clock : Time)
  | kill (refreshToken : String)

def Hub.env : Env → Hub → Option Hub
  | .tick clock, w => if w.clock ≤ clock then some { w with clock } else none
  | .kill token, w => some { w with dead := token :: w.dead }

abbrev Res : Call → Type
  | .authorize _ => Except OauthError IntegrationsOauthService.AuthorizeResponse
  | .complete .. => Except OauthError IntegrationsOauthService.CompleteOutcome
  | .disconnect .. => Except OauthError Unit
  | .status _ => Except OauthError AccountRow
  | .refreshDue _ => Except OauthError IntegrationsOauthService.RefreshSummary
  | .ensureFresh .. => Except OauthError AccountRow
  | .refreshOauthCredentials .. => Except DbError RefreshReport
  | .refreshForCompanies .. => List (Uuid × Except DbError RefreshReport)

def prog (lib : Crates) (svc : IntegrationsOauthService) : (c : Call) → Prog Sig (Res c)
  | .authorize req => (svc.authorize lib req).run
  | .complete companyId req => (svc.complete lib companyId req).run
  | .disconnect companyId accountId =>
    (IntegrationsOauthService.disconnect companyId accountId).run
  | .status accountId => (IntegrationsOauthService.status accountId).run
  | .refreshDue companyId => (svc.refreshDue lib companyId).run
  | .ensureFresh companyId accountId => (svc.ensureFresh lib companyId accountId).run
  | .refreshOauthCredentials job companyId => (job.refreshOauthCredentials lib companyId).run
  | .refreshForCompanies job companies => job.refreshForCompanies lib companies

def system (lib : Crates) (svc : IntegrationsOauthService) : System Sig Hub Call Res Env where
  prog := prog lib svc
  next := Hub.next
  leave t w := w.release t
  env := Hub.env

@[simp] theorem system_leave (lib : Crates) (svc : IntegrationsOauthService) (t : Tid) (w : Hub) :
    (system lib svc).leave t w = w.release t := rfl

end BackboneIntegrations.OAuth
