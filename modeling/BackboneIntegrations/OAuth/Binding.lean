import BackboneIntegrations.OAuth.Lifecycle

/-!
# Authorize and complete bind the same authorization

The two halves share a signed token, a row and the configuration. Every row that a completion
reads under the id of its token is the row that the `authorize` of that token inserted.
-/

open Interleave

namespace BackboneIntegrations.OAuth

open IntegrationsOauthService

variable {lib : Crates} {svc : IntegrationsOauthService} {w₀ : Hub}
  {ok : Config (system lib svc) → Label (system lib svc) → Prop} {cfg cfg' : Config (system lib svc)}

/-! ## Where a row comes from -/

/-- The row still has the key that it was inserted with, and its verifier or none. -/
structure Account.From (r : Account) (row : NewAccount) : Prop where
  key : r.key = (row.provider, row.accountRef)
  verifier : r.pkceVerifier = none ∨ r.pkceVerifier = row.pkceVerifier

theorem StatusUpdate.set_from {r : Account} {row : NewAccount} (u : StatusUpdate) (h : r.From row) :
    (u.set r).From row where
  key := (u.set_key r).trans h.key
  verifier := by cases u <;> exact .inl rfl

theorem ClaimedUpdate.set_from {r : Account} {row : NewAccount} (u : ClaimedUpdate) (now : Time)
    (h : r.From row) : (u.set now r).From row where
  key := (u.set_key now r).trans h.key
  verifier := by
    cases u with
    | expireActive => exact .inl rfl
    | _ => exact h.verifier

/-- The row was there from the start, or a call has inserted it. -/
def Origin (w₀ : Hub) (cfg : Config (system lib svc)) (id : Uuid) (p : NewAccount → Prop) : Prop :=
  w₀.status? id ≠ none ∨ ∃ t row, cfg.Did t (.insertAccount row) (.ok ()) ∧ row.id = id ∧ p row

theorem Origin.step {l : Label (system lib svc)} {id : Uuid} {p : NewAccount → Prop}
    (h : Origin w₀ cfg id p) (hs : Step (system lib svc) cfg l cfg') : Origin w₀ cfg' id p := by
  rcases h with h | ⟨t, row, hd, hid, hp⟩
  · exact .inl h
  · exact .inr ⟨t, row, hs.did.mpr (.inr hd), hid, hp⟩

theorem Origin.mono {id : Uuid} {p q : NewAccount → Prop} (h : Origin w₀ cfg id p)
    (hpq : ∀ row, p row → q row) : Origin w₀ cfg id q := by
  rcases h with h | ⟨t, row, hd, hid, hp⟩
  · exact .inl h
  · exact .inr ⟨t, row, hd, hid, hpq row hp⟩

theorem origin_of_row (h₀ : w₀.Idle) (hr : Reach (system lib svc) (· = w₀) ok cfg) {id : Uuid}
    {r : Account} (h : (Hub.accounts cfg.world).lookup id = some r) : Origin w₀ cfg id r.From := by
  induction hr generalizing r with
  | init hw =>
    subst hw
    exact .inl fun hnone => by simp [Hub.status?_eq_none.mp hnone] at h
  | @step cfg l cfg' hreach _ hs ih =>
    refine Origin.step ?_ hs
    by_cases hl : ∃ t op ans, l = .op t op ans
    · obtain ⟨t, op, ans, rfl⟩ := hl
      have hc := step_change hs
      generalize hw' : cfg'.world = w' at hc h
      cases hc with
      | commit =>
        -- A row comes from an insertion, and no update changes what it binds.
        refine Hub.foldl_rows (P := fun r => Origin w₀ cfg id r.From) (fun r hr => ih hr) ?_ ?_ h
        · intro row hm hid
          have hd : cfg.Did t (.insertAccount row) (.ok ()) := asked_of_writes hreach h₀ hm
          exact .inr ⟨t, row, hd, hid, ⟨rfl, .inr rfl⟩⟩
        · exact fun u now r _ hr => hr.mono fun row hf => u.set_from now hf
      | @update x u r₀ hrow hfree =>
        obtain ⟨hrow, -⟩ := Hub.statusTarget_eq_some.mp hrow
        simp only [Hub.setStatus, Table.lookup_insert_ite] at h
        split at h
        · cases h
          subst_vars
          exact (ih hrow).mono fun row hf => u.set_from hf
        · exact ih h
      | _ => exact ih h
    · push Not at hl
      rw [(step_beside hs hl).accounts] at h
      exact ih h

theorem origin_of_fetched (h₀ : w₀.Idle) (hr : Reach (system lib svc) (· = w₀) ok cfg) {t : Tid}
    {id : Uuid} {r : AccountRow} (hd : cfg.Did t (.fetchAccount id) (.ok (some r))) :
    Origin w₀ cfg id fun row => (r.provider, r.accountRef) = (row.provider, row.accountRef) := by
  induction hr with
  | init _ => cases hd
  | @step cfg l cfg' hreach _ hs ih =>
    refine Origin.step ?_ hs
    rcases hs.did.mp hd with rfl | hd
    · have hn : Hub.next t (.fetchAccount id) (.ok (some r)) cfg.world = some cfg'.world := hs.next_eq
      simp only [Hub.next, Option.ite_none_right_eq_some] at hn
      obtain ⟨a, ha, rfl⟩ := Option.map_eq_some_iff.mp hn.1.symm
      exact (origin_of_row h₀ hreach ha).mono fun row hf => hf.key
    · exact ih hd

theorem origin_of_verifier (h₀ : w₀.Idle) (hr : Reach (system lib svc) (· = w₀) ok cfg) {t : Tid}
    {id : Uuid} {v : String} (hd : cfg.Did t (.fetchVerifier id) (.ok (some (some v)))) :
    Origin w₀ cfg id fun row => row.pkceVerifier = some v := by
  induction hr with
  | init _ => cases hd
  | @step cfg l cfg' hreach _ hs ih =>
    refine Origin.step ?_ hs
    rcases hs.did.mp hd with rfl | hd
    · have hn : Hub.next t (.fetchVerifier id) (.ok (some (some v))) cfg.world = some cfg'.world :=
        hs.next_eq
      simp only [Hub.next, Option.ite_none_right_eq_some] at hn
      obtain ⟨a, ha, hv⟩ := Option.map_eq_some_iff.mp hn.1.symm
      refine (origin_of_row h₀ hreach ha).mono fun row hf => ?_
      rcases hf.verifier with hnone | heq
      · rw [hnone] at hv
        cases hv
      · rw [← heq, hv]
    · exact ih hd

/-! ## One row for each id -/

def InsertsRow (op : Op) : Prop := ∃ row, op = .insertAccount row

theorem inserts_once {c : Call} {h : Past} {op : Op} (hm : (script lib svc).must c h op)
    (hop : InsertsRow op) : ∀ ev ∈ h, ¬ InsertsRow ev.op := by
  obtain ⟨row, rfl⟩ := hop
  cases c with
  | authorize req =>
    obtain ⟨-, -, hu⟩ := hm
    rintro ev hev ⟨row', hrow'⟩
    exact (hu ev hev).2 row' hrow'
  | _ => exact hm.elim

theorem newUuid_of_insert (hr : Reach (system lib svc) (· = w₀) ok cfg) {t : Tid} {row : NewAccount}
    {ans : Ans (.insertAccount row)} (hd : cfg.Did t (.insertAccount row) ans) :
    cfg.Did t .newUuid row.id := by
  have hX := script_holds lib svc
  obtain ⟨c, hc⟩ := hX.call_of_did hr hd
  obtain ⟨pre, hpre, hm⟩ := hX.past hr hc hd
  cases c with
  | authorize req =>
    obtain ⟨-, hid, -⟩ := hm
    exact mem_events.mp (hpre.subset (List.mem_cons_of_mem _ hid))
  | _ => exact hm.elim

theorem inserted_unique (h₀ : w₀.Idle) (hr : Reach (system lib svc) (· = w₀) ok cfg) {t u : Tid}
    {row row' : NewAccount} (ht : cfg.Did t (.insertAccount row) (.ok ()))
    (hu : cfg.Did u (.insertAccount row') (.ok ())) (hid : row.id = row'.id) : row = row' := by
  have htu : t = u := by
    have h := newUuid_of_insert hr ht
    rw [hid] at h
    exact (minted_of_reach h₀ hr).unique h (newUuid_of_insert hr hu)
  subst htu
  have heq := (script_holds lib svc).once hr (fun _ _ _ hm hop => inserts_once hm hop) ht hu ⟨row, rfl⟩
    ⟨row', rfl⟩
  cases heq
  rfl

theorem Origin.of_inserted {id : Uuid} {p : NewAccount → Prop} (h : Origin w₀ cfg id p) (h₀ : w₀.Idle)
    (hr : Reach (system lib svc) (· = w₀) ok cfg) {t : Tid} {row : NewAccount}
    (hd : cfg.Did t (.insertAccount row) (.ok ())) (hid : row.id = id) : p row := by
  subst hid
  rcases h with h | ⟨u, row', hd', hid', hp⟩
  · exact absurd ((minted_of_reach h₀ hr).fresh (newUuid_of_insert hr hd)) h
  · rw [inserted_unique h₀ hr hd hd' hid'.symm]
    exact hp

theorem IntegrationsOauthService.Presented.verifier_eq (h₀ : w₀.Idle)
    (hr : Reach (system lib svc) (· = w₀) ok cfg) {t u : Tid} {req : CompleteRequest}
    {state : OAuthState} {account : AccountRow} {adapter : ProviderAdapter} {verifier : Option String}
    {endpoint : ValidatedEndpoint} {form : TokenRequestForm} {pre : Past}
    (hp : Presented lib svc req state account adapter verifier endpoint form pre)
    (hpre : ∀ ev ∈ pre, ev ∈ cfg.events t) {row : NewAccount}
    (hd : cfg.Did u (.insertAccount row) (.ok ())) (hid : row.id = state.accountId) :
    verifier = row.pkceVerifier := by
  have hX := script_holds lib svc
  obtain ⟨c, hc⟩ := hX.call_of_did hr hd
  obtain ⟨pre', -, hmust⟩ := hX.past hr hc hd
  cases c with
  | authorize req₀ =>
    obtain ⟨⟨a, ha, verifier', hsome, hrow⟩, -⟩ := hmust
    have hread := (origin_of_fetched h₀ hr (mem_events.mp (hpre _ hp.read))).of_inserted h₀ hr hd hid
    -- The row that was read is the one that was inserted, so both calls use one adapter.
    have hprovider : account.provider = a.provider := by
      rw [(Prod.mk.inj hread).1, hrow]
    have hcfg := hp.configured
    rw [hprovider, (admitRequest_ok ha).2.2.1] at hcfg
    cases hcfg
    have hv : row.pkceVerifier = verifier' := by rw [hrow]
    have hstored := hp.stored
    rw [hv]
    split at hstored
    · obtain ⟨v, rfl, hm⟩ := hstored
      rw [← hv]
      exact ((origin_of_verifier h₀ hr (mem_events.mp (hpre _ hm))).of_inserted h₀ hr hd hid).symm
    · rename_i hpkce
      rw [Bool.eq_false_iff.mpr hpkce, Option.isSome_eq_false_iff, Option.isNone_iff_eq_none] at hsome
      rw [hstored, hsome]
  | _ => exact hmust.elim

/-! ## The two halves -/

section

variable (lib svc) (a : Admitted) (verifier : Option String) (nonce token : String)

theorem authorizePairs_lookup :
    let pairs := svc.authorizePairs lib a verifier nonce token
    pairs.lookup "client_id" = some a.clientId ∧ pairs.lookup "redirect_uri" = some svc.redirectUri ∧
      pairs.lookup "code_challenge" = verifier.map (pkceChallenge lib) ∧
      pairs.lookup "nonce" = some nonce := by
  cases verifier <;> exact ⟨rfl, rfl, rfl, rfl⟩

end

/-- A completion on thread `t` went to the token endpoint for the authorization `a`, whose URL has
these pairs. -/
structure SameAuthorization (cfg : Config (system lib svc)) (a : Admitted)
    (pairs : List (String × String)) (t : Tid) (companyId : Uuid) (endpoint : ValidatedEndpoint)
    (form : TokenRequestForm) : Prop where
  challenge : pairs.lookup "code_challenge" = form.codeVerifier.map (pkceChallenge lib)
  redirectUri : pairs.lookup "redirect_uri" = form.redirectUri
  clientId : pairs.lookup "client_id" = some form.clientId
  tokenEndpoint : endpoint = a.endpoints.token
  /-- The nonce was enforced before each write to the store, and the write is for the scope of `a`. -/
  stored : ∀ {op} {ans : Ans op} {scope bundle expiresAt}, cfg.Did t op ans →
    storeWrite? op = some (scope, bundle, expiresAt) →
    scope = ⟨companyId, a.provider, a.accountRef⟩ ∧
      ∃ (identity : IdentityClaims) (response : TokenResponse) (form' : TokenRequestForm),
        cfg.Did t (.fetchIdentity a.endpoints.userinfo response.accessToken) (.ok identity) ∧
        cfg.Did t (.exchange endpoint form') (.ok response) ∧
        effective identity.nonce
          ((response.idToken.bind (decodeIdTokenClaims lib)).bind (·.nonce)) = pairs.lookup "nonce"

/-- **Authorize and complete bind the same authorization.** Let a call of `authorize` have minted a
token and returned its URL. Each completion that carries the token sends to the token endpoint what
the URL promised, and it stores the credential for the scope of that `authorize`. -/
theorem same_authorization (h₀ : w₀.Idle) (hsigner : svc.signer.RoundTrips lib)
    (hr : Reach (system lib svc) (· = w₀) ok cfg) {u : Tid} {req₀ : AuthorizeRequest}
    {resp : AuthorizeResponse} (hu : cfg.threads u = .done (.authorize req₀) (.ok resp)) :
    ∃ (a : Admitted) (verifier : Option String) (nonce token : String),
      Authorized lib svc req₀ resp a verifier nonce token (cfg.events u) ∧
      ∀ t companyId req endpoint form ans, cfg.call? t = some (.complete companyId req) →
        req.state = token → cfg.Did t (.exchange endpoint form) ans →
        SameAuthorization cfg a (svc.authorizePairs lib a verifier nonce token) t companyId endpoint
          form := by
  have hX := script_holds lib svc
  obtain ⟨a, verifier, nonce, token, hauth⟩ := hX.leave hr hu
  obtain ⟨now, -, hmint⟩ := hauth.minted
  have hrow := mem_events.mp hauth.inserted
  obtain ⟨-, -, hadapter, hendpoints⟩ := admitRequest_ok hauth.admitted
  obtain ⟨hclient, hredirect, hchallenge, hnonce⟩ := authorizePairs_lookup lib svc a verifier nonce token
  refine ⟨a, verifier, nonce, token, hauth, ?_⟩
  intro t companyId req endpoint form ans hc hcarries hd
  obtain rfl : token = req.state := hcarries.symm
  have hbinding := StateSigner.binding_of_mint hsigner hmint
  -- what the call has read under the id of its token fits the row of the `authorize`
  have fetched : ∀ {r : AccountRow}, cfg.Did t (.fetchAccount resp.accountId) (.ok (some r)) →
      r.provider = a.provider ∧ r.accountRef = a.accountRef := by
    intro r hread
    exact Prod.mk.inj ((origin_of_fetched h₀ hr hread).of_inserted h₀ hr hrow rfl)
  obtain ⟨pre, hpre, state, account, adapter, v, hp⟩ := hX.past hr hc hd
  have hst := hp.token
  rw [hbinding] at hst
  cases hst
  obtain ⟨hprovider, href⟩ := fetched (mem_events.mp (hpre.subset (List.mem_cons_of_mem _ hp.read)))
  obtain ⟨endpoints, clientId, hresolved, rfl, rfl⟩ := hp.form
  rw [hprovider, hendpoints] at hresolved
  cases hresolved
  have hv : v = verifier :=
    hp.verifier_eq h₀ hr (fun _ hm => hpre.subset (List.mem_cons_of_mem _ hm)) hrow rfl
  subst hv
  constructor
  · exact hchallenge
  · exact hredirect
  · exact hclient
  · rfl
  · intro op ans' scope bundle expiresAt hd' hw
    obtain ⟨g, pre', hpre', hg, -, rfl, -⟩ := gauntlet_before_store hr hc hd' hw
    have hgstate := StateSigner.Authentic.unique hg.token (StateSigner.authentic_of_binding hbinding)
    have hread := mem_events.mp (hpre'.subset (List.mem_cons_of_mem _ hg.read))
    rw [hgstate] at hread
    obtain ⟨hgp, hgr⟩ := fetched hread
    obtain ⟨endpoints, clientId, identity, he, ⟨form', hx⟩, hi, hverified⟩ := hg.verified
    rw [hgp, hendpoints] at he
    cases he
    refine ⟨by rw [hgp, hgr], identity, g.response, form', ?_, ?_, ?_⟩
    · exact mem_events.mp (hpre'.subset (List.mem_cons_of_mem _ hi))
    · exact mem_events.mp (hpre'.subset (List.mem_cons_of_mem _ (hx.subset (by simp))))
    · rw [hnonce, hverified.nonce, hgstate]

/-! ## One authorization of the mailbox -/

def newHub : Hub := { mailHub with accounts := ∅, used := [] }

def mailAuthorize : AuthorizeRequest := ⟨"gmail", "user@example.com", none⟩

def mailNewRow : NewAccount :=
  ⟨1, "gmail", "user@example.com", gmailAdapter.defaultScopes, some zeros48B64⟩

/-- An authorization, and its completion up to the token endpoint. -/
def mailFlow : List (Label (system mailCrates mailService)) :=
  [.start 0 (.authorize mailAuthorize), .op 0 (.randomBytes 48) (List.replicate 48 (0 : UInt8)),
    .op 0 .newUuid (1 : Nat), .op 0 .begin (.ok ()),
    .op 0 (.deleteSnapshot "gmail" "user@example.com") (.ok []),
    .op 0 (.insertAccount mailNewRow) (.ok ()), .op 0 .commit (.ok ()),
    .op 0 (.randomBytes 16) (List.replicate 16 (0 : UInt8)), .op 0 .utcNow (0 : Int), .finish 0,
    .start 1 (.complete 9 mailRequest), .op 1 .utcNow (0 : Int),
    .op 1 (.fetchAccount 1) (.ok (some (mailNewRow.toAccount.toRow 1))),
    .op 1 (.fetchVerifier 1) (.ok (some (some zeros48B64))),
    .op 1 (.exchange gmailToken { mailForm with codeVerifier := zeros48B64 }) (.ok mailResponse)]

def mailFlowEnd (cfg : Config (system mailCrates mailService)) : Bool :=
  match cfg.threads 0 with
  | .done (.authorize _) (.ok _) => true
  | _ => false

theorem mailFlow_runs : (replay (fun cfg l => mailRules cfg l) (.init newHub) mailFlow).any
    mailFlowEnd = true := by
  decide +kernel

theorem newHub_idle : newHub.Idle where
  txs := rfl
  used := fun h => absurd rfl h

theorem mailSigner_roundTrips : mailService.signer.RoundTrips mailCrates where
  payload := by
    intro state payload h
    simp only [mailCrates] at h
    split at h
    · cases h
      subst_vars
      refine ⟨by decide +kernel, by decide +kernel, by decide +kernel⟩
    · cases h
  mac := by
    intro state payload h
    simp only [mailCrates] at h
    split at h
    · cases h
      decide +kernel
    · cases h

theorem mailState_minted :
    mailService.signer.mint mailCrates ⟨(1 : Nat), "gmail", zeros16B64, timestamp 0 + stateTtlSeconds⟩ =
      .ok mailRequest.state := by
  decide +kernel

theorem same_authorization_mailbox : ∃ (cfg : Config (system mailCrates mailService))
    (resp : AuthorizeResponse) (a : Admitted) (verifier : Option String) (nonce : String),
      cfg.threads 0 = .done (.authorize mailAuthorize) (.ok resp) ∧
      cfg.Did 1 (.exchange gmailToken { mailForm with codeVerifier := zeros48B64 }) (.ok mailResponse) ∧
      Authorized mailCrates mailService mailAuthorize resp a verifier nonce mailRequest.state
        (cfg.events 0) ∧
      SameAuthorization cfg a
        (mailService.authorizePairs mailCrates a verifier nonce mailRequest.state) 1 (9 : Nat) gmailToken
        { mailForm with codeVerifier := zeros48B64 } := by
  obtain ⟨cfg, hr, hh, hend⟩ : ∃ cfg, Reach (system mailCrates mailService) (· = newHub)
      (fun cfg l => mailRules cfg l) cfg ∧ cfg.hist = mailFlow.reverse ∧ mailFlowEnd cfg = true := by
    refine Reach.exists_of_replay ?_ mailFlow_runs
    rfl
  have hc : cfg.call? 0 = some (.authorize mailAuthorize) :=
    hr.call_of_start (by simp [hh, mailFlow])
  have hc' : cfg.call? 1 = some (.complete (9 : Nat) mailRequest) :=
    hr.call_of_start (by simp [hh, mailFlow])
  have hd : cfg.Did 1 (.exchange gmailToken { mailForm with codeVerifier := zeros48B64 })
      (.ok mailResponse) := by
    simp [Config.Did, hh, mailFlow]
  unfold mailFlowEnd at hend
  split at hend
  · rename_i heq
    rw [Config.call?, heq] at hc
    cases hc
    obtain ⟨a, verifier, nonce, token, hauth, hsame⟩ :=
      same_authorization newHub_idle mailSigner_roundTrips hr heq
    -- one row, one nonce and one clock reading: the token is that of the request
    obtain ⟨bytes, hbytes, rfl⟩ := hauth.drawn
    obtain ⟨now, hnow, hmint⟩ := hauth.minted
    have hrow := mem_events.mp hauth.inserted
    rw [mem_events] at hbytes hnow
    simp only [Config.Did, hh, mailFlow, mailNewRow] at hrow hbytes hnow
    simp at hrow hbytes hnow
    obtain ⟨hid, hprovider, -⟩ := hrow
    have hzeros : mailCrates.encode bytes = zeros16B64 := by
      rw [hbytes]
      decide +kernel
    rw [hid, hprovider, hnow, hzeros, mailState_minted] at hmint
    cases hmint
    exact ⟨cfg, _, a, verifier, _, heq, hd, hauth, hsame _ _ _ _ _ _ hc' rfl hd⟩
  · cases hend

end BackboneIntegrations.OAuth
