import BackboneIntegrations.OAuth.Calls

/-!
# Nothing enters the store before the gauntlet

In every run, a store write of `complete` comes after all of its checks, and it stores what
the provider answered to this call.
-/

open Interleave

namespace BackboneIntegrations.OAuth

open IntegrationsOauthService

variable {lib : Crates} {svc : IntegrationsOauthService} {init : Hub → Prop}
  {ok : Config (system lib svc) → Label (system lib svc) → Prop} {cfg : Config (system lib svc)}

theorem fetched_id (h : Reach (system lib svc) init ok cfg) {t : Tid} {id : Uuid} {r : AccountRow}
    (hd : cfg.Did t (.fetchAccount id) (.ok (some r))) : r.id = id := by
  let P (l : Label (system lib svc)) (_ : Hub) : Prop :=
    ∀ t id (r : AccountRow), l = .op t (.fetchAccount id) (.ok (some r)) → r.id = id
  refine h.mem_hist (P := P) ?_ (fun _ _ _ hl => hl) _ hd t id r rfl
  rintro cfg l cfg' _ _ hs t id r rfl
  cases hs with
  | op ht hw =>
    simp only [system, Hub.next, Option.ite_none_right_eq_some] at hw
    obtain ⟨a, -, ha⟩ := Option.map_eq_some_iff.mp hw.1.symm
    rw [← ha]
    rfl

/-- The scope, the bundle and the expiry of a write to the store. -/
def storeWrite? : Op → Option (CredentialScope × TokenBundle × Time)
  | .issue scope _ bundle expiresAt | .rotate scope bundle expiresAt => some (scope, bundle, expiresAt)
  | _ => none

/-- **Nothing enters the store before the gauntlet.** Before each issue or rotate of `complete`,
the call has passed every check for a grant, and it stores that grant. -/
theorem gauntlet_before_store (h : Reach (system lib svc) init ok cfg) {t : Tid} {companyId : Uuid}
    {req : CompleteRequest} (hc : cfg.call? t = some (.complete companyId req)) {op : Op}
    {ans : Ans op} (hd : cfg.Did t op ans) {scope : CredentialScope} {bundle : TokenBundle}
    {expiresAt : Time} (hw : storeWrite? op = some (scope, bundle, expiresAt)) :
    ∃ (g : Grant) (pre : Past), ⟨op, ans⟩ :: pre <:+ cfg.events t ∧ g.Cleared lib svc req pre ∧
      g.account.id = g.state.accountId ∧
      scope = ⟨companyId, g.account.provider, g.account.accountRef⟩ ∧
      bundle.accessToken = g.response.accessToken ∧ bundle.expiresAt = g.expiresAt ∧
      expiresAt = g.expiresAt := by
  obtain ⟨pre, hpre, hm⟩ := (script_holds lib svc).past h hc hd
  have row : ∀ g : Grant, g.Cleared lib svc req pre → g.account.id = g.state.accountId := by
    intro g hg
    refine fetched_id h (mem_events.mp (hpre.subset (List.mem_cons_of_mem _ hg.read)))
  cases op <;> cases hw
  case issue =>
    obtain ⟨g, refresh, hg, rfl, -, rfl, rfl⟩ := hm
    exact ⟨g, pre, hpre, hg, row g hg, rfl, rfl, rfl, rfl⟩
  case rotate =>
    obtain ⟨g, refresh, hg, rfl, rfl, rfl⟩ := hm
    exact ⟨g, pre, hpre, hg, row g hg, rfl, rfl, rfl, rfl⟩

/-! ## A deployment for one mailbox

The crates are tables of what they answer on the values that the runs below meet.
-/

section Mailbox

def mailKey : Bytes := List.replicate 32 7

def mailState : OAuthState := ⟨1, "gmail", "AAAAAAAAAAAAAAAAAAAAAA", 600⟩

/-- `mailState` as JSON. -/
def mailPayload : Bytes :=
  [123, 34, 97, 99, 99, 111, 117, 110, 116, 95, 105, 100, 34, 58, 34, 48, 48, 48, 48, 48, 48,
    48, 48, 45, 48, 48, 48, 48, 45, 48, 48, 48, 48, 45, 48, 48, 48, 48, 45, 48, 48, 48, 48, 48,
    48, 48, 48, 48, 48, 48, 49, 34, 44, 34, 112, 114, 111, 118, 105, 100, 101, 114, 34, 58, 34,
    103, 109, 97, 105, 108, 34, 44, 34, 110, 111, 110, 99, 101, 34, 58, 34, 65, 65, 65, 65, 65,
    65, 65, 65, 65, 65, 65, 65, 65, 65, 65, 65, 65, 65, 65, 65, 65, 65, 34, 44, 34, 101, 120,
    112, 34, 58, 54, 48, 48, 125]

def mailMac : Bytes :=
  [228, 16, 235, 116, 179, 52, 32, 198, 103, 109, 213, 175, 225, 132, 160, 34, 251, 201, 3, 98, 59,
    9, 127, 76, 135, 199, 211, 233, 20, 173, 198, 60]

def mailPayloadB64 : String :=
  "eyJhY2NvdW50X2lkIjoiMDAwMDAwMDAtMDAwMC0wMDAwLTAwMDAtMDAwMDAwMDAwMDAxIiwicHJvdmlkZXIiOiJnbWFp" ++
    "bCIsIm5vbmNlIjoiQUFBQUFBQUFBQUFBQUFBQUFBQUFBQSIsImV4cCI6NjAwfQ"

def mailMacB64 : String := "5BDrdLM0IMZnbdWv4YSgIvvJA2I7CX9Mh8fT6RStxjw"

def mailToken : String := mailPayloadB64 ++ "." ++ mailMacB64

/-- The SHA-256 of 64 times `A`. -/
def mailDigest : Bytes :=
  [213, 62, 218, 122, 99, 124, 153, 204, 127, 181, 102, 217, 110, 159, 161, 9, 191, 21, 196, 120, 65,
    10, 63, 94, 180, 212, 196, 226, 108, 208, 129, 246]

def zeros16B64 : String := "AAAAAAAAAAAAAAAAAAAAAA"

def zeros48B64 : String := "AAAAAAAAAAAAAAAAAAAAAAAAAAAAAAAAAAAAAAAAAAAAAAAAAAAAAAAAAAAAAAAA"

/-- What base64 makes of the bytes below. -/
def mailTable : List (Bytes × String) :=
  [(mailPayload, mailPayloadB64), (mailMac, mailMacB64), (List.replicate 16 0, zeros16B64),
    (List.replicate 48 0, zeros48B64), (mailDigest, "1T7aemN8mcx_tWbZbp-hCb8VxHhBCj9etNTE4mzQgfY")]

/-- `https` URLs with a host and a path. -/
def parseHttps (s : String) : Except String Url :=
  match s.toList with
  | 'h' :: 't' :: 't' :: 'p' :: 's' :: ':' :: '/' :: '/' :: rest =>
    .ok ⟨"https", "", none, some (String.ofList (rest.takeWhile (· != '/'))), none,
      String.ofList (rest.dropWhile (· != '/')), none, none⟩
  | _ => .error "relative URL without a base"

def mailCrates : Crates where
  parse := parseHttps
  asStr u := "https://" ++ u.host.getD "" ++ u.path
  appendPairs u ps := ps.foldl (fun s (k, v) => s ++ "&" ++ k ++ "=" ++ v) (u.host.getD "" ++ u.path)
  encode b := (mailTable.lookup b).getD ""
  decode s := if s = mailPayloadB64 then mailPayload else if s = mailMacB64 then mailMac else none
  hmacSha256 key msg := if key = mailKey ∧ msg = mailPayload then mailMac else []
  sha256 b := if b = zeros48B64.toUTF8.data.toList then mailDigest else []
  stateToVec s := if s = mailState then .ok mailPayload else .error ""
  stateFromSlice b := if b = mailPayload then mailState else none
  jsonFromSlice _ := none
  unprintable := Text.isControl

def gmailAuthorize : ValidatedEndpoint where
  providerKey := "gmail"
  key := .authorize
  url := ⟨"https", "", none, some "accounts.google.com", none, "/o/oauth2/v2/auth", none, none⟩
  accepted := ⟨googleHosts, by decide⟩

def gmailToken : ValidatedEndpoint where
  providerKey := "gmail"
  key := .token
  url := ⟨"https", "", none, some "oauth2.googleapis.com", none, "/token", none, none⟩
  accepted := ⟨googleHosts, by decide⟩

def gmailUserinfo : ValidatedEndpoint where
  providerKey := "gmail"
  key := .userinfo
  url := ⟨"https", "", none, some "openidconnect.googleapis.com", none, "/v1/userinfo", none, none⟩
  accepted := ⟨googleHosts, by decide⟩

def mailService : IntegrationsOauthService where
  registry := .withBuiltin
  endpoints := AList.singleton "gmail" ⟨gmailAuthorize, gmailToken, gmailUserinfo⟩
  clients := AList.singleton "gmail" ⟨"client-1", none⟩
  signer := ⟨mailKey⟩
  publicBase := "https://api.example.com"
  refreshWindow := 600
  window_range := by decide
  refreshBatchSize := 100
  batch_pos := by decide
  sharedMailboxBypass := false

theorem gmail_resolved : ValidatedEndpoints.resolve mailCrates.toUrlCrate .withBuiltin "gmail" ∅ =
    .ok ⟨gmailAuthorize, gmailToken, gmailUserinfo⟩ := by decide +kernel

/-- One pending account, and an empty store. -/
def mailHub : Hub where
  accounts := AList.singleton 1
    ⟨"gmail", "user@example.com", .pending, "", some "verifier", none, none⟩
  txs := .empty
  began _ := 0
  credentials := []
  dead := []
  used := [1]
  clock := 0

def mailRow : AccountRow := ⟨1, "gmail", "user@example.com", .pending, "", none, none⟩

def mailRequest : CompleteRequest := ⟨"code-1", mailToken⟩

def mailForm : TokenRequestForm :=
  ⟨"authorization_code", "code-1", none, "https://api.example.com/api/v1/integrations/oauth/callback",
    "verifier", "client-1", none, none⟩

def mailResponse : TokenResponse := ⟨"access-1", "refresh-1", some 3600, none, none⟩

def mailIdentity (email : String) : IdentityClaims :=
  ⟨email, true, "client-1", mailState.nonce⟩

def mailBundle : TokenBundle :=
  ⟨"access-1", "refresh-1", 3600000000, gmailAdapter.defaultScopes⟩

def mailScope : CredentialScope := ⟨9, "gmail", "user@example.com"⟩

/-- Statements do not fail, and the store answers as its port documents. -/
def mailRules (cfg : Config (system mailCrates mailService)) :
    Label (system mailCrates mailService) → Bool
  | .op _ op ans => Answered op ans && Hub.StorePort cfg.world op ans
  | _ => true

/-- A disconnect on thread 1 runs between the last check of a `complete` and its store write. The
provider reports the email with a blank in front. -/
def mailRace : List (Label (system mailCrates mailService)) :=
  [.start 0 (.complete 9 mailRequest), .op 0 .utcNow (0 : Int),
    .op 0 (.fetchAccount 1) (.ok (some mailRow)),
    .op 0 (.fetchVerifier 1) (.ok (some (some "verifier"))),
    .op 0 (.exchange gmailToken mailForm) (.ok mailResponse), .op 0 .utcNow (0 : Int),
    .op 0 (.fetchIdentity gmailUserinfo "access-1") (.ok (mailIdentity " user@example.com")),
    .start 1 (.disconnect 9 1), .op 1 (.fetchAccount 1) (.ok (some mailRow)),
    .op 1 (.revoke mailScope) (.error ⟨OAuthCredentialFailure.codeNotFound, ""⟩),
    .op 1 (.update 1 .revoke) (.ok (1 : Nat)), .finish 1,
    .op 0 (.issue mailScope purposeOauthToken mailBundle 3600000000) (.ok (77 : Nat)),
    .op 0 (.update 1 (.activate "" 3600000000 0)) (.ok (0 : Nat)), .finish 0]

/-- How the race ends: the `complete` fails, the `disconnect` does not, the account is revoked, and
there is a credential. -/
def mailRaceEnd (cfg : Config (system mailCrates mailService)) : Bool :=
  (match cfg.threads 0 with | .done (.complete ..) (.error _) => true | _ => false) &&
  (match cfg.threads 1 with | .done (.disconnect ..) (.ok _) => true | _ => false) &&
  Hub.status? cfg.world 1 == some .revoked && (Hub.current cfg.world mailScope).isSome

theorem mailRace_runs : (replay (fun cfg l => mailRules cfg l) (.init mailHub) mailRace).any
    mailRaceEnd = true := by
  decide +kernel

theorem mailRace_reach : ∃ (cfg : Config (system mailCrates mailService)) (e : OauthError),
    Reach (system mailCrates mailService) (· = mailHub) (fun cfg l => mailRules cfg l) cfg ∧
      cfg.hist = mailRace.reverse ∧
      cfg.threads 0 = .done (.complete 9 mailRequest) (.error e) ∧
      cfg.threads 1 = .done (.disconnect 9 1) (.ok ()) ∧
      Hub.status? cfg.world 1 = some .revoked ∧ (Hub.current cfg.world mailScope).isSome := by
  obtain ⟨cfg, hr, hh, hend⟩ : ∃ cfg, Reach (system mailCrates mailService) (· = mailHub)
      (fun cfg l => mailRules cfg l) cfg ∧ cfg.hist = mailRace.reverse ∧ mailRaceEnd cfg = true := by
    refine Reach.exists_of_replay ?_ mailRace_runs
    rfl
  have h0 : cfg.call? 0 = some (.complete 9 mailRequest) :=
    hr.call_of_start (by simp [hh, mailRace])
  have h1 : cfg.call? 1 = some (.disconnect 9 1) := hr.call_of_start (by simp [hh, mailRace])
  simp only [mailRaceEnd, Bool.and_eq_true, beq_iff_eq] at hend
  obtain ⟨⟨⟨hend0, hend1⟩, hs⟩, hcur⟩ := hend
  simp only [Config.call?] at h0 h1
  split at hend0
  · rename_i heq0
    split at hend1
    · rename_i heq1
      rw [heq0] at h0
      rw [heq1] at h1
      cases h0
      cases h1
      exact ⟨cfg, _, hr, hh, heq0, heq1, hs, hcur⟩
    · cases hend1
  · cases hend0

theorem gauntlet_before_store_mailbox : ∃ cfg : Config (system mailCrates mailService),
    ∃ (g : Grant) (pre : Past),
      ⟨.issue mailScope purposeOauthToken mailBundle 3600000000, .ok 77⟩ :: pre <:+ cfg.events 0 ∧
      g.Cleared mailCrates mailService mailRequest pre ∧ g.account.id = g.state.accountId ∧
      mailScope = ⟨9, g.account.provider, g.account.accountRef⟩ ∧
      mailBundle.accessToken = g.response.accessToken ∧ mailBundle.expiresAt = g.expiresAt ∧
      3600000000 = g.expiresAt := by
  obtain ⟨cfg, e, hr, hh, -⟩ := mailRace_reach
  have hc : cfg.call? 0 = some (.complete 9 mailRequest) :=
    hr.call_of_start (by simp [hh, mailRace])
  have hd : cfg.Did 0 (.issue mailScope purposeOauthToken mailBundle 3600000000) (.ok 77) := by
    simp [Config.Did, hh, mailRace]
  exact ⟨cfg, gauntlet_before_store hr hc hd rfl⟩

/-! White space around the provider's email does not count: `" user@example.com"` completes the
authorization of `user@example.com`. -/

theorem blank_email_accepted : ∃ cfg : Config (system mailCrates mailService),
    Reach (system mailCrates mailService) (· = mailHub) (fun cfg l => mailRules cfg l) cfg ∧
      cfg.call? 0 = some (.complete 9 mailRequest) ∧
      cfg.Did 0 (.issue mailScope purposeOauthToken mailBundle 3600000000) (.ok 77) ∧
      ∀ endpoint token identity, cfg.Did 0 (.fetchIdentity endpoint token) (.ok identity) →
        ¬ ∃ email, identity.email = some email ∧
          (Text.eqIgnoreAsciiCase email mailScope.accountRef ∨ mailService.sharedMailboxBypass) := by
  obtain ⟨cfg, e, hr, hh, -⟩ := mailRace_reach
  refine ⟨cfg, hr, hr.call_of_start (by simp [hh, mailRace]), by simp [Config.Did, hh, mailRace], ?_⟩
  intro endpoint token identity hd
  have : identity = mailIdentity " user@example.com" := by
    simp only [Config.Did, hh, mailRace, List.mem_reverse, List.mem_cons] at hd
    exact (by simpa using hd : (_ ∧ _) ∧ identity = _).2
  subst this
  rintro ⟨email, hemail, hm⟩
  cases hemail
  revert hm
  decide

end Mailbox

end BackboneIntegrations.OAuth
