import BackboneIntegrations.OAuth.Steps

/-!
# What the calls do, in order

The script of a call: what it has done before each statement and each store write, and when
it returns.
-/

open Interleave

namespace BackboneIntegrations.OAuth

/-- The operations of one call with their answers, newest first. -/
abbrev Past := List (Event Sig)

/-- The account that the open transaction of a call has claimed. -/
def openClaim : Past → Option DueAccount
  | [] => none
  | ⟨.claimDue .., .ok d⟩ :: _ | ⟨.claimById _, .ok d⟩ :: _ => d
  | ⟨.begin, .ok ()⟩ :: _ | ⟨.commit, .ok ()⟩ :: _ | ⟨.rollback, .ok ()⟩ :: _ | ⟨.drop, ()⟩ :: _ =>
    none
  | _ :: h => openClaim h

/-- A write to the credential store that went through. -/
def IsStored : Event Sig → Prop
  | ⟨.issue .., .ok _⟩ | ⟨.rotate .., .ok _⟩ => True
  | _ => False

/-- A status update that changed its row. -/
def IsSet : Event Sig → Prop
  | ⟨.update .., .ok n⟩ => n = 1
  | _ => False

/-- The token that the provider answered last. -/
def lastResponse : Past → Option TokenResponse
  | [] => none
  | ⟨.exchange .., .ok response⟩ :: _ => some response
  | ⟨.exchange .., .error _⟩ :: _ => none
  | _ :: h => lastResponse h

/-- The bundle of the scope, as the call read it last. -/
def lastRead (scope : CredentialScope) : Past → Option TokenBundle
  | [] => none
  | ⟨.readToken s, .ok b⟩ :: h => if s = scope then some b else lastRead scope h
  | ⟨.readToken s, .error _⟩ :: h => if s = scope then none else lastRead scope h
  | _ :: h => lastRead scope h

/-- The bundle takes the refresh token of the provider's answer, or else the one that was read. -/
def Carries (h : Past) (scope : CredentialScope) (bundle : TokenBundle) : Prop :=
  ∃ response, lastResponse h = some response ∧ bundle.accessToken = response.accessToken ∧
    bundle.refreshToken = response.refreshToken.or ((lastRead scope h).bind (·.refreshToken))

/-- What every call keeps to when it writes to the store. -/
def carryMust (h : Past) : Op → Prop
  | .issue scope purpose bundle _ => purpose = purposeOauthToken ∧ Carries h scope bundle
  | .rotate scope bundle _ => Carries h scope bundle
  | _ => True

/-- A refresh has read the bundle that it replaces. -/
def renewMust (h : Past) : Op → Prop
  | .issue .. => False
  | .rotate scope bundle _ => Carries h scope bundle ∧ (lastRead scope h).isSome
  | _ => True

theorem renewMust.carry {h : Past} {op : Op} (hop : renewMust h op) : carryMust h op := by
  cases op with
  | issue => exact hop.elim
  | rotate => exact hop.1
  | _ => trivial

theorem renewMust_rotate {h : Past} {scope : CredentialScope} {bundle prior : TokenBundle} {e : Time}
    {response : TokenResponse} (hresp : lastResponse h = some response)
    (hp : lastRead scope h = some prior) (ha : bundle.accessToken = response.accessToken)
    (hr : bundle.refreshToken = response.refreshToken.or prior.refreshToken) :
    renewMust h (.rotate scope bundle e) :=
  ⟨⟨response, hresp, ha, by rw [hr, hp]; rfl⟩, by rw [hp]; rfl⟩

/-- Only a commit and a status update that matched change a row. -/
theorem Hub.Change.accounts_eq {t : Tid} {w w' : Hub} {op : Op} {ans : Ans op}
    (h : w.Change t op ans w') (hset : ¬ IsSet ⟨op, ans⟩) (hc : op ≠ .commit) :
    w'.accounts = w.accounts := by
  cases h with
  | commit => exact absurd rfl hc
  | update hr hfree => exact absurd rfl hset
  | _ => rfl

section

variable {σ ε α : Type} {C : Contract Sig σ} {s : σ}

theorem meets_orPanic {o : Option α} {Q : Except ε α → σ → Prop} (hp : o = none → C.must s .panic)
    (hQ : ∀ a, o = some a → Q (.ok a) s) : Meets C (orPanic o : Flow ε α).run s Q := by
  cases o with
  | some a => exact hQ a rfl
  | none => exact ⟨hp rfl, fun e => nomatch (e : Empty)⟩

theorem meets_lifetime {response : TokenResponse} {now : Time} {Q : Except ε (Option Time) → σ → Prop}
    (hp : ∀ secs, response.lifetime = some secs → addSeconds now secs = none → C.must s .panic)
    (hnone : response.lifetime = none → Q (.ok none) s)
    (hsome : ∀ secs t, response.lifetime = some secs → addSeconds now secs = some t →
      Q (.ok (some t)) s) :
    Meets C (expiresAt response now : Flow ε _).run s Q := by
  unfold expiresAt
  cases hl : response.lifetime with
  | none => exact hnone hl
  | some secs =>
    rw [meets_run_map]
    exact meets_orPanic (hp secs hl) fun t ht => hsome secs t hl ht

theorem meets_expiresAt {response : TokenResponse} {now : Time} {Q : Except ε (Option Time) → σ → Prop}
    (hp : C.must s .panic) (hnone : Q (.ok none) s)
    (hsome : ∀ secs t, response.expiresIn = some secs → 0 < secs →
      t = now + secs * microsPerSecond → Q (.ok (some t)) s) :
    Meets C (expiresAt response now : Flow ε _).run s Q := by
  refine meets_lifetime (fun _ _ _ => hp) (fun _ => hnone) fun secs t hl ht => ?_
  obtain ⟨hs, hpos⟩ : response.expiresIn = some secs ∧ 0 < secs := by
    simpa [TokenResponse.lifetime, Option.filter_eq_some_iff] using hl
  exact hsome secs t hs hpos (addSeconds_eq ht)

end

/-! ## `authorize` -/

variable {lib : Crates} {svc : IntegrationsOauthService}

namespace IntegrationsOauthService

theorem admitRequest_ok {req : AuthorizeRequest} {a : Admitted} (h : svc.admitRequest lib req = .ok a) :
    a.provider = Text.trim req.provider ∧ normalizeAccountRef req.accountRef = some a.accountRef ∧
    svc.registry.lookup a.provider = some a.adapter ∧
    svc.endpointsFor lib a.provider = .ok (a.endpoints, a.clientId) := by
  unfold admitRequest at h
  simp only at h
  split at h
  · rename_i adapter hadapter
    cases he : svc.endpointsFor lib (Text.trim req.provider) with
    | error e =>
      rw [he] at h
      cases h
    | ok ec =>
      rw [he] at h
      simp only [bind, Except.bind] at h
      split at h
      · rename_i accountRef href
        split at h
        · cases h
        · split at h
          · cases h
          · cases h
            exact ⟨rfl, href, hadapter, he⟩
      · cases h
  · cases h
/-- A row that `authorize` inserts for a request. -/
def Admitted.Row (a : Admitted) (row : NewAccount) : Prop :=
  ∃ verifier : Option String, verifier.isSome = a.adapter.pkceS256 ∧
    row = ⟨row.id, a.provider, a.accountRef, a.scopes, verifier⟩

/-- The row of the call is not inserted yet. -/
def Uninserted (h : Past) : Prop := ∀ ev ∈ h, ev.op ≠ .commit ∧ ∀ row, ev.op ≠ .insertAccount row

theorem Uninserted.cons {h : Past} (hu : Uninserted h) {ev : Event Sig}
    (he : ev.op ≠ .commit ∧ ∀ row, ev.op ≠ .insertAccount row) : Uninserted (ev :: h) :=
  List.forall_mem_cons.mpr ⟨he, hu⟩

def authorizeMust (lib : Crates) (svc : IntegrationsOauthService) (req : AuthorizeRequest)
    (h : Past) : Op → Prop
  | .deleteRow id => ∃ a ids, svc.admitRequest lib req = .ok a ∧ id ∈ ids ∧
      ⟨.deleteSnapshot a.provider a.accountRef, .ok ids⟩ ∈ h
  | .insertAccount row => (∃ a, svc.admitRequest lib req = .ok a ∧ a.Row row) ∧
      ⟨.newUuid, row.id⟩ ∈ h ∧ Uninserted h
  | .claimDue .. | .claimById _ | .updateTx .. | .update .. | .issue .. | .rotate .. | .revoke _ =>
    False
  | _ => True

/-- What a call of `authorize` that returned has done: its row is committed, and its URL is the
authorize endpoint with the token that it minted for the row. -/
structure Authorized (lib : Crates) (svc : IntegrationsOauthService) (req : AuthorizeRequest)
    (resp : AuthorizeResponse) (a : Admitted) (verifier : Option String) (nonce token : String)
    (h : Past) : Prop where
  admitted : svc.admitRequest lib req = .ok a
  inserted : ⟨.insertAccount ⟨resp.accountId, a.provider, a.accountRef, a.scopes, verifier⟩, .ok ()⟩ ∈ h
  committed : ⟨.commit, .ok ()⟩ ∈ h
  drawn : ∃ bytes, ⟨.randomBytes 16, bytes⟩ ∈ h ∧ nonce = lib.encode bytes
  minted : ∃ now, ⟨.utcNow, now⟩ ∈ h ∧
    svc.signer.mint lib ⟨resp.accountId, a.provider, nonce, timestamp now + stateTtlSeconds⟩ = .ok token
  url : ∃ url, lib.parse (lib.asStr a.endpoints.authorize.url) = .ok url ∧
    resp.authorizeUrl = lib.appendPairs url (svc.authorizePairs lib a verifier nonce token)

def authorizeLeave (lib : Crates) (svc : IntegrationsOauthService) (req : AuthorizeRequest)
    (h : Past) : Except OauthError AuthorizeResponse → Prop
  | .ok resp => ∃ a verifier nonce token, Authorized lib svc req resp a verifier nonce token h
  | .error _ => True

section

variable {req : AuthorizeRequest}

theorem meets_mintText {must : Past → Op → Prop} {n : Nat} {h : Past}
    {Q : Except OauthError String → Past → Prop} (hm : must h (.randomBytes n))
    (hQ : ∀ bytes, Q (.ok (lib.encode bytes)) (⟨.randomBytes n, bytes⟩ :: h)) :
    Meets (.ofPast must) (mintText lib n).run h Q := by
  simp only [mintText, ask, Prog.ask, meets_run_bind, meets_run_answer, meets_call, meets_ret,
    meets_run_pure, ofPast_must, ofPast_may, forall_eq]
  exact ⟨hm, hQ⟩

theorem deleteRows_meets {a : Admitted} (ha : svc.admitRequest lib req = .ok a) {all ids : List Uuid}
    {h : Past} {id : Uuid} (hids : ∀ i ∈ ids, i ∈ all)
    (hsnap : ⟨.deleteSnapshot a.provider a.accountRef, .ok all⟩ ∈ h)
    (hid : ⟨.newUuid, id⟩ ∈ h) (hc : Uninserted h) :
    Meets (.ofPast (authorizeMust lib svc req)) (deleteRows ids).run h fun _ h' =>
      ⟨.newUuid, id⟩ ∈ h' ∧ Uninserted h' := by
  induction ids generalizing h with
  | nil => exact ⟨hid, hc⟩
  | cons i ids ih =>
    obtain ⟨hi, hrest⟩ := List.forall_mem_cons.mp hids
    simp only [deleteRows, sql, ask, Prog.ask, meets_run_bind, meets_run_orFail, meets_call,
      meets_ret, ofPast_must, ofPast_may, forall_eq]
    refine ⟨⟨a, all, ha, hi, hsnap⟩, ?_⟩
    rintro (err | n)
    · exact ⟨List.mem_cons_of_mem _ hid, hc.cons (by simp)⟩
    · exact ih hrest (List.mem_cons_of_mem _ hsnap) (List.mem_cons_of_mem _ hid) (hc.cons (by simp))

theorem replaceRow_meets {a : Admitted} (ha : svc.admitRequest lib req = .ok a) {row : NewAccount} {h : Past}
    (hrow : a.Row row) (hid : ⟨.newUuid, row.id⟩ ∈ h) (hc : Uninserted h) :
    Meets (.ofPast (authorizeMust lib svc req)) (replaceRow row).run h fun r h' =>
      ∀ u, r = .ok u → ⟨.insertAccount row, .ok ()⟩ ∈ h' ∧ ⟨.commit, .ok ()⟩ ∈ h' := by
  obtain ⟨verifier, -, hrow'⟩ := id hrow
  simp only [replaceRow, begin, commit, sql, ask, Prog.ask, meets_run_bind, meets_run_orFail,
    meets_call, meets_ret, ofPast_must, ofPast_may, forall_eq]
  refine ⟨trivial, ?_⟩
  rintro (err | ⟨⟩)
  · rintro u ⟨⟩
  refine ⟨trivial, ?_⟩
  rintro (err | ids)
  · rintro u ⟨⟩
  have hsnap : ⟨.deleteSnapshot a.provider a.accountRef, .ok ids⟩ ∈
      ⟨.deleteSnapshot row.provider row.accountRef, .ok ids⟩ :: ⟨.begin, .ok ()⟩ :: h := by
    rw [hrow']
    exact List.mem_cons_self
  refine (deleteRows_meets ha (fun _ hi => hi) hsnap
    (List.mem_cons_of_mem _ (List.mem_cons_of_mem _ hid))
    ((hc.cons (by simp)).cons (by simp))).mono ?_
  rintro (err | ⟨⟩) h' ⟨hid', hc'⟩
  · rintro u ⟨⟩
  refine ⟨⟨⟨a, ha, hrow⟩, hid', hc'⟩, ?_⟩
  rintro (err | ⟨⟩)
  · rintro u ⟨⟩
  refine ⟨trivial, ?_⟩
  rintro (err | ⟨⟩)
  · rintro u ⟨⟩
  · exact fun _ _ => ⟨by simp, List.mem_cons_self⟩

theorem authorizeAdmitted_meets {a : Admitted} (ha : svc.admitRequest lib req = .ok a)
    {verifier : Option String} (hv : verifier.isSome = a.adapter.pkceS256) {h : Past}
    (hc : Uninserted h) :
    Meets (.ofPast (authorizeMust lib svc req)) (svc.authorizeAdmitted lib a verifier).run h
      fun r h => authorizeLeave lib svc req h r := by
  simp only [authorizeAdmitted, ask, Prog.ask, meets_run_bind, meets_run_answer, meets_call,
    meets_ret, ofPast_must, ofPast_may, forall_eq]
  refine ⟨trivial, fun id => ?_⟩
  refine (replaceRow_meets ha ⟨verifier, hv, rfl⟩ List.mem_cons_self (hc.cons (by simp))).mono ?_
  rintro (err | ⟨⟩) h' hrow
  · trivial
  obtain ⟨hins, hcom⟩ := hrow _ rfl
  refine meets_mintText trivial fun bytes => ?_
  simp only [utcNow, ask, Prog.ask, meets_run_answer, meets_call, meets_ret, meets_run_ofExcept,
    ofPast_must, ofPast_may, forall_eq]
  refine ⟨trivial, fun now => ?_⟩
  split
  · rename_i token hmint
    split
    · trivial
    · rename_i url hurl
      exact ⟨a, verifier, _, token, ha, by simp [hins], by simp [hcom], ⟨bytes, by simp, rfl⟩,
        ⟨now, by simp, hmint⟩, ⟨url, hurl, rfl⟩⟩
  · trivial

theorem authorize_meets (req : AuthorizeRequest) :
    Meets (.ofPast (authorizeMust lib svc req)) (svc.authorize lib req).run []
      fun r h => authorizeLeave lib svc req h r := by
  rw [authorize, meets_run_bind, meets_run_ofExcept]
  cases ha : svc.admitRequest lib req with
  | error e => trivial
  | ok a =>
    simp only [meets_run_bind, meets_run_ite, meets_run_map]
    refine ⟨fun hp => meets_mintText trivial fun bytes => ?_, fun hp => ?_⟩
    · refine authorizeAdmitted_meets ha ?_ (by simp [Uninserted])
      exact hp.symm
    · refine authorizeAdmitted_meets ha ?_ (by simp [Uninserted])
      exact (Bool.eq_false_iff.mpr hp).symm

end

/-! ## `complete` -/

/-- The identity that the provider reported fits the grant: its audience is the configured client,
its nonce is the state's, and its email is the account's. -/
structure Grant.Verified (lib : Crates) (svc : IntegrationsOauthService) (g : Grant)
    (clientId : String) (identity : IdentityClaims) : Prop where
  audience : effective identity.audience
    ((g.response.idToken.bind (decodeIdTokenClaims lib)).bind (·.audience)) = some clientId
  nonce : effective identity.nonce
    ((g.response.idToken.bind (decodeIdTokenClaims lib)).bind (·.nonce)) = some g.state.nonce
  email : EmailMatches identity g.account.accountRef svc.sharedMailboxBypass

/-- What a call of `complete` has seen before it touches the store. -/
structure Grant.Cleared (lib : Crates) (svc : IntegrationsOauthService) (req : CompleteRequest)
    (g : Grant) (h : Past) : Prop where
  token : svc.signer.Authentic lib req.state g.state
  unexpired : ∃ checkedAt, timestamp checkedAt < g.state.exp ∧ ⟨.utcNow, checkedAt⟩ ∈ h
  read : ⟨.fetchAccount g.state.accountId, .ok (some g.account)⟩ ∈ h
  pending : g.account.status = .pending
  provider : g.account.provider = g.state.provider
  verified : ∃ endpoints clientId identity,
    svc.endpointsFor lib g.account.provider = .ok (endpoints, clientId) ∧
    (∃ form, [⟨.utcNow, g.now⟩, ⟨.exchange endpoints.token form, .ok g.response⟩] <:+: h) ∧
    ⟨.fetchIdentity endpoints.userinfo g.response.accessToken, .ok identity⟩ ∈ h ∧
    g.Verified lib svc clientId identity
  lifetime : ∃ secs, g.response.expiresIn = some secs ∧ 0 < secs ∧
    g.expiresAt = g.now + secs * microsPerSecond

theorem Grant.Cleared.cons {req : CompleteRequest} {g : Grant} {h : Past}
    (hg : g.Cleared lib svc req h) (ev : Event Sig) : g.Cleared lib svc req (ev :: h) := by
  obtain ⟨htok, ⟨t, ht, hm⟩, hr, hp, hprov, ⟨e, c, i, he, ⟨f, hf⟩, hi, hv⟩, hl⟩ := hg
  exact ⟨htok, ⟨t, ht, List.mem_cons_of_mem _ hm⟩, List.mem_cons_of_mem _ hr, hp, hprov,
    ⟨e, c, i, he, ⟨f, hf.trans (List.suffix_cons ..).isInfix⟩, List.mem_cons_of_mem _ hi, hv⟩, hl⟩

/-- What a call of `complete` has read before it goes to the token endpoint. -/
structure Presented (lib : Crates) (svc : IntegrationsOauthService) (req : CompleteRequest)
    (state : OAuthState) (account : AccountRow) (adapter : ProviderAdapter)
    (verifier : Option String) (endpoint : ValidatedEndpoint) (form : TokenRequestForm) (h : Past) :
    Prop where
  token : svc.signer.binding lib req.state = .ok state
  read : ⟨.fetchAccount state.accountId, .ok (some account)⟩ ∈ h
  pending : account.status = .pending
  provider : account.provider = state.provider
  configured : svc.registry.lookup account.provider = some adapter
  stored : if adapter.pkceS256 then
      ∃ v, verifier = some v ∧ ⟨.fetchVerifier state.accountId, .ok (some (some v))⟩ ∈ h
    else verifier = none
  form : ∃ endpoints clientId, svc.endpointsFor lib account.provider = .ok (endpoints, clientId) ∧
    endpoint = endpoints.token ∧ form = svc.exchangeForm req account.provider verifier clientId

/-- The call has been at the token endpoint. -/
def Exchanged (h : Past) : Prop := ∃ endpoint form ans, ⟨.exchange endpoint form, ans⟩ ∈ h

theorem Grant.Cleared.exchanged {req : CompleteRequest} {g : Grant} {h : Past}
    (hg : g.Cleared lib svc req h) : Exchanged h := by
  obtain ⟨e, c, i, he, ⟨f, hf⟩, -⟩ := hg.verified
  exact ⟨e.token, f, .ok g.response, hf.subset (by simp)⟩

def completeMust (lib : Crates) (svc : IntegrationsOauthService) (companyId : Uuid)
    (req : CompleteRequest) (h : Past) : Op → Prop
  | .issue scope purpose bundle expiresAt => ∃ (g : Grant) (refresh : Option String),
      g.Cleared lib svc req h ∧ scope = g.scope companyId ∧ purpose = purposeOauthToken ∧
        bundle = g.bundle refresh ∧ expiresAt = g.expiresAt
  | .rotate scope bundle expiresAt => ∃ (g : Grant) (refresh : Option String),
      g.Cleared lib svc req h ∧ scope = g.scope companyId ∧ bundle = g.bundle refresh ∧
        expiresAt = g.expiresAt
  | .update id u => ∃ (g : Grant) (ev : Event Sig) (h' : Past),
      g.Cleared lib svc req h ∧ id = g.state.accountId ∧
        u = .activate (g.response.scope.getD "") g.expiresAt g.now ∧ IsStored ev ∧ h = ev :: h'
  | .exchange endpoint form => ∃ state account adapter verifier,
      Presented lib svc req state account adapter verifier endpoint form h
  | .fetchIdentity .. | .readToken _ => Exchanged h
  | .begin | .deleteSnapshot .. | .deleteRow _ | .insertAccount _ | .claimDue .. | .claimById _
  | .updateTx .. | .commit | .rollback | .drop | .revoke _ | .newUuid => False
  | _ => True

/-- `complete` returns `Ok` only after its update matched, and it fails in two ways: before it wrote
anything, or at that update. -/
def completeLeave (h : Past) : Except OauthError CompleteOutcome → Prop
  | .ok o => ∃ scopes expiresAt now, ⟨.update o.accountId (.activate scopes expiresAt now), .ok 1⟩ ∈ h
  | .error _ => (∀ ev ∈ h, ¬ IsSet ev) ∧
      ((∀ ev ∈ h, ¬ IsStored ev) ∨
        ∃ id u ans h', ans ≠ .ok 1 ∧ h = ⟨.update id u, ans⟩ :: h')

section

variable {companyId : Uuid} {req : CompleteRequest} {must : Past → Op → Prop}

/-- No write of `complete` went through yet. -/
def Clean (h : Past) : Prop := ∀ ev ∈ h, ¬ IsStored ev ∧ ¬ IsSet ev

theorem Clean.cons {h : Past} {ev : Event Sig} (hc : Clean h) (hs : ¬ IsStored ev) (hu : ¬ IsSet ev) :
    Clean (ev :: h) :=
  List.forall_mem_cons.mpr ⟨⟨hs, hu⟩, hc⟩

theorem Clean.leave {h : Past} (hc : Clean h) {e : OauthError} : completeLeave h (.error e) :=
  ⟨fun ev hev => (hc ev hev).2, .inl fun ev hev => (hc ev hev).1⟩

variable (hm : ∀ {h op}, completeMust lib svc companyId req h op → carryMust h op → must h op)

include hm

theorem verify_meets {Q : Except OauthError OAuthState → Past → Prop}
    (herr : ∀ e h, Clean h → Q (.error e) h)
    (hok : ∀ state t, svc.signer.binding lib req.state = .ok state → timestamp t < state.exp →
      Q (.ok state) [⟨.utcNow, t⟩]) :
    Meets (.ofPast must) (svc.verify lib req.state).run [] Q := by
  rw [verify, meets_run_bind, meets_run_ofExcept]
  cases hb : svc.signer.binding lib req.state with
  | error e => exact herr e _ (fun _ h => nomatch h)
  | ok state =>
    simp only [utcNow, ask, Prog.ask, meets_run_bind, meets_run_answer, meets_run_ite,
      meets_run_throw, meets_call, meets_ret, ofPast_must, ofPast_may, forall_eq]
    refine ⟨hm trivial trivial, fun t => ⟨fun _ => herr _ _ ?_, fun ht => ?_⟩⟩
    · exact Clean.cons (fun _ h => nomatch h) id id
    · exact hok state t hb (Int.not_le.mp ht)

theorem pendingAccount_meets {state : OAuthState} {h : Past} (hc : Clean h)
    {Q : Except OauthError (AccountRow × ProviderAdapter × ValidatedEndpoints × String) →
      Past → Prop} (herr : ∀ e h, Clean h → Q (.error e) h)
    (hok : ∀ account adapter endpoints clientId, account.provider = state.provider →
      account.status = .pending → svc.registry.lookup account.provider = some adapter →
      svc.endpointsFor lib account.provider = .ok (endpoints, clientId) →
      Q (.ok (account, adapter, endpoints, clientId))
        (⟨.fetchAccount state.accountId, .ok (some account)⟩ :: h)) :
    Meets (.ofPast must) (svc.pendingAccount lib state).run h Q := by
  simp only [pendingAccount, fetchAccount, sql, ask, Prog.ask, meets_run_bind, meets_run_orFail,
    meets_call, meets_ret, ofPast_must, ofPast_may, forall_eq]
  refine ⟨hm trivial trivial, ?_⟩
  rintro (err | _ | account)
  · exact herr _ _ (hc.cons id id)
  · exact herr _ _ (hc.cons id id)
  simp only [Except.mapError, meets_run_bind, meets_run_ite, meets_run_throw]
  refine ⟨fun _ => herr _ _ (hc.cons id id), fun hp => ⟨fun _ => herr _ _ (hc.cons id id), fun hs => ?_⟩⟩
  split
  · rename_i adapter hadapter
    simp only [meets_run_bind, meets_run_ofExcept]
    cases he : svc.endpointsFor lib account.provider with
    | error e => exact herr _ _ (hc.cons id id)
    | ok ec => exact hok _ _ _ _ (not_not.mp hp) (not_not.mp hs) hadapter he
  · exact herr _ _ (hc.cons id id)

theorem storedVerifier_meets {accountId : Uuid} {h : Past} (hc : Clean h)
    {Q : Except OauthError String → Past → Prop} (herr : ∀ e h, Clean h → Q (.error e) h)
    (hok : ∀ v, Q (.ok v) (⟨.fetchVerifier accountId, .ok (some (some v))⟩ :: h)) :
    Meets (.ofPast must) (storedVerifier accountId).run h Q := by
  simp only [storedVerifier, sql, ask, Prog.ask, meets_run_bind, meets_run_orFail, meets_call,
    meets_ret, ofPast_must, ofPast_may, forall_eq]
  refine ⟨hm trivial trivial, ?_⟩
  rintro (err | row)
  · exact herr _ _ (hc.cons id id)
  simp only [Except.mapError]
  split
  · rename_i stored hstored
    obtain ⟨hjoin, -⟩ := Option.filter_eq_some_iff.mp hstored
    rw [Option.join_eq_some_iff.mp hjoin]
    exact hok _
  · exact herr _ _ (hc.cons id id)

theorem identify_meets {state : OAuthState} {account : AccountRow} {adapter : ProviderAdapter}
    {endpoints : ValidatedEndpoints} {clientId : String} {verifier : Option String} {h : Past}
    (htok : svc.signer.binding lib req.state = .ok state)
    (hexp : ∃ t, timestamp t < state.exp ∧ ⟨.utcNow, t⟩ ∈ h)
    (hread : ⟨.fetchAccount state.accountId, .ok (some account)⟩ ∈ h)
    (hs : account.status = .pending) (hp : account.provider = state.provider)
    (ha : svc.registry.lookup account.provider = some adapter)
    (he : svc.endpointsFor lib account.provider = .ok (endpoints, clientId))
    (hv : if adapter.pkceS256 then
        ∃ v, verifier = some v ∧ ⟨.fetchVerifier state.accountId, .ok (some (some v))⟩ ∈ h
      else verifier = none) (hc : Clean h)
    {Q : Except OauthError Grant → Past → Prop} (herr : ∀ e h, Clean h → Q (.error e) h)
    (hok : ∀ g h, Clean h → g.Cleared lib svc req h → lastResponse h = some g.response →
      Q (.ok g) h) :
    Meets (.ofPast must)
      (svc.identify lib req state account adapter endpoints clientId verifier).run h Q := by
  simp only [identify, utcNow, ask, Prog.ask, meets_run_bind, meets_run_orFail, meets_run_answer,
    meets_call, meets_ret, ofPast_must, ofPast_may, forall_eq]
  refine ⟨hm ⟨state, account, adapter, verifier, htok, hread, hs, hp, ha, hv,
    ⟨endpoints, clientId, he, rfl, rfl⟩⟩ trivial, ?_⟩
  rintro (err | response)
  · exact herr _ _ (hc.cons id id)
  refine ⟨hm trivial trivial, fun now => ?_⟩
  have hc' : Clean (⟨.utcNow, now⟩ :: ⟨.exchange endpoints.token (svc.exchangeForm req
    account.provider verifier clientId), .ok response⟩ :: h) := (hc.cons id id).cons id id
  refine meets_expiresAt (hm trivial trivial) (herr _ _ hc') fun secs expiresAt hsecs hpos hat => ?_
  simp only [meets_run_bind, meets_run_orFail, meets_run_ofExcept, meets_run_pure, meets_call,
    meets_ret, ofPast_must, ofPast_may, forall_eq]
  refine ⟨hm ⟨_, _, _, List.mem_cons_of_mem _ List.mem_cons_self⟩ trivial, ?_⟩
  rintro (err | identity)
  · exact herr _ _ (hc'.cons id id)
  simp only [Except.mapError]
  -- Both checks come before the store verb, so a refusal leaves nothing behind.
  cases haud : verifyAudienceAndNonce lib identity response.idToken clientId state.nonce with
  | error e => exact herr _ _ (hc'.cons id id)
  | ok _ =>
    cases hmail : verifyEmailMatch lib identity account.accountRef svc.sharedMailboxBypass with
    | error e => exact herr _ _ (hc'.cons id id)
    | ok _ =>
      obtain ⟨haud, hn⟩ := verifyAudienceAndNonce_ok haud
      obtain ⟨t, ht, hmem⟩ := hexp
      refine hok ⟨state, account, adapter, response, now, expiresAt⟩ _ (hc'.cons id id) ?_ rfl
      exact ⟨StateSigner.authentic_of_binding htok, ⟨t, ht, by simp [hmem]⟩, by simp [hread], hs, hp,
        ⟨endpoints, clientId, identity, he, ⟨_, [_], _, rfl⟩, List.mem_cons_self,
          ⟨haud, hn, verifyEmailMatch_ok.mp hmail⟩⟩, ⟨secs, hsecs, hpos, hat⟩⟩

theorem gauntlet_meets {Q : Except OauthError Grant → Past → Prop}
    (herr : ∀ e h, Clean h → Q (.error e) h)
    (hok : ∀ g h, Clean h → g.Cleared lib svc req h → lastResponse h = some g.response →
      Q (.ok g) h) :
    Meets (.ofPast must) (svc.gauntlet lib req).run [] Q := by
  rw [gauntlet, meets_run_bind]
  refine verify_meets hm herr fun state t htok ht => ?_
  simp only [meets_run_bind]
  have hc : Clean [⟨.utcNow, t⟩] := Clean.cons (fun _ h => nomatch h) id id
  refine pendingAccount_meets hm hc herr fun account adapter endpoints clientId hp hs ha he => ?_
  have hc' : Clean [⟨.fetchAccount state.accountId, .ok (some account)⟩, ⟨.utcNow, t⟩] :=
    hc.cons id id
  simp only [meets_run_bind, meets_run_ite, meets_run_map]
  refine ⟨fun hpkce => ?_, fun hpkce => ?_⟩
  · refine storedVerifier_meets hm hc' herr fun v => ?_
    refine identify_meets hm htok ⟨t, ht, by simp⟩ (by simp) hs hp ha he ?_ (hc'.cons id id) herr hok
    rw [if_pos hpkce]
    exact ⟨v, rfl, List.mem_cons_self⟩
  · refine identify_meets hm htok ⟨t, ht, by simp⟩ (by simp) hs hp ha he ?_ hc' herr hok
    rw [if_neg hpkce]

theorem carriedRefresh_meets {g : Grant} {h : Past} (hc : Clean h) (hg : g.Cleared lib svc req h)
    (hresp : lastResponse h = some g.response) {Q : Except OauthError (Option String) → Past → Prop}
    (hok : ∀ refresh h, Clean h → g.Cleared lib svc req h →
      Carries h (g.scope companyId) (g.bundle refresh) → Q (.ok refresh) h) :
    Meets (.ofPast must) (carriedRefresh companyId g).run h Q := by
  unfold carriedRefresh
  split
  · rename_i r hr
    exact hok _ _ hc hg ⟨g.response, hresp, rfl, by simp [Grant.bundle, hr]⟩
  · rename_i hr
    simp only [ask, Prog.ask, meets_run_bind, meets_run_answer, meets_call, meets_ret, ofPast_must,
      ofPast_may, forall_eq]
    refine ⟨hm hg.exchanged trivial, ?_⟩
    rintro (err | prior)
    · exact hok _ _ (hc.cons id id) (hg.cons _)
        ⟨g.response, hresp, rfl, by simp [Grant.bundle, hr, lastRead]⟩
    · exact hok _ _ (hc.cons id id) (hg.cons _)
        ⟨g.response, hresp, rfl, by simp [Grant.bundle, hr, lastRead]⟩

theorem storeBundle_meets {g : Grant} {refresh : Option String} {h : Past} (hc : Clean h)
    (hg : g.Cleared lib svc req h) (hcarry : Carries h (g.scope companyId) (g.bundle refresh))
    {Q : Except OauthError Unit → Past → Prop}
    (herr : ∀ e h, Clean h → Q (.error e) h)
    (hok : ∀ ev h', IsStored ev → g.Cleared lib svc req (ev :: h') →
      (∀ ev' ∈ ev :: h', ¬ IsSet ev') → Q (.ok ()) (ev :: h')) :
    Meets (.ofPast must) (storeBundle companyId g refresh).run h Q := by
  simp only [storeBundle, ask, Prog.ask, meets_run_bind, meets_run_answer, meets_call, meets_ret,
    ofPast_must, ofPast_may, forall_eq]
  refine ⟨hm ⟨g, refresh, hg, rfl, rfl, rfl, rfl⟩ ⟨rfl, hcarry⟩, ?_⟩
  rintro (f | cid)
  · have hc' : Clean (⟨.issue (g.scope companyId) purposeOauthToken (g.bundle refresh)
        g.expiresAt, .error f⟩ :: h) := hc.cons id id
    simp only [meets_run_ite, meets_run_bind, meets_run_orFail, meets_run_throw, meets_call,
      meets_ret, ofPast_must, ofPast_may, forall_eq]
    refine ⟨fun _ => ⟨hm ⟨g, refresh, hg.cons _, rfl, rfl, rfl⟩ hcarry, ?_⟩, fun _ => herr _ _ hc'⟩
    rintro (f | cid)
    · exact herr _ _ (hc'.cons id id)
    · exact hok _ _ trivial ((hg.cons _).cons _)
        (List.forall_mem_cons.mpr ⟨id, fun ev hev => (hc' ev hev).2⟩)
  · exact hok _ _ trivial (hg.cons _) (List.forall_mem_cons.mpr ⟨id, fun ev hev => (hc ev hev).2⟩)

theorem activate_meets {g : Grant} {ev : Event Sig} {h' : Past} (hs : IsStored ev)
    (hg : g.Cleared lib svc req (ev :: h')) (hu : ∀ ev' ∈ ev :: h', ¬ IsSet ev') :
    Meets (.ofPast must) (activate g).run (ev :: h')
      fun r h => completeLeave h r := by
  simp only [activate, sql, ask, Prog.ask, meets_run_bind, meets_run_orFail, meets_call, meets_ret,
    ofPast_must, ofPast_may, forall_eq]
  refine ⟨hm ⟨g, ev, h', hg, rfl, rfl, hs, rfl⟩ trivial, ?_⟩
  have failed : ∀ (id : Uuid) (u : StatusUpdate) (ans : Ans (.update id u)) (e : OauthError),
      ans ≠ .ok 1 → completeLeave (⟨.update id u, ans⟩ :: ev :: h') (.error e) := by
    intro id u ans e hne
    refine ⟨List.forall_mem_cons.mpr ⟨?_, hu⟩, .inr ⟨id, u, ans, _, hne, rfl⟩⟩
    rcases ans with err | n
    · exact fun h => h
    · exact fun h => hne (congrArg Except.ok h)
  rintro (err | n)
  · exact failed _ _ _ _ (by simp)
  · simp only [Except.mapError, meets_run_ite, meets_run_bind, meets_run_throw, meets_run_pure]
    refine ⟨fun hn => failed _ _ _ _ (by simpa using hn), fun hn => ?_⟩
    rw [not_not.mp hn]
    exact ⟨_, _, _, List.mem_cons_self⟩

theorem complete_meets :
    Meets (.ofPast must) (svc.complete lib companyId req).run []
      fun r h => completeLeave h r := by
  rw [complete, meets_run_bind]
  refine gauntlet_meets hm (fun e h hc => hc.leave) fun g h hc hg hresp => ?_
  simp only [meets_run_bind]
  refine carriedRefresh_meets hm hc hg hresp fun refresh h hc hg hcarry => ?_
  exact storeBundle_meets hm hc hg hcarry (fun e h hc => hc.leave) fun ev h' => activate_meets hm

end

/-! ## `disconnect` -/

/-- The store has withdrawn the credential, or it says that there never was one. -/
def Withdrawn : Except OAuthCredentialFailure Unit → Prop
  | .ok () => True
  | .error f => f.code = OAuthCredentialFailure.codeNotFound

/-- A disconnect that revoked at the store, for the account that it read. -/
def withdrew (companyId accountId : Uuid) (account : AccountRow)
    (ans : Except OAuthCredentialFailure Unit) : Past :=
  [⟨.revoke (account.scope companyId), ans⟩, ⟨.fetchAccount accountId, .ok (some account)⟩]

def disconnectMust (companyId accountId : Uuid) (h : Past) : Op → Prop
  | .fetchAccount _ => True
  | .revoke scope => ∃ account : AccountRow, scope = account.scope companyId ∧
      h = [⟨.fetchAccount accountId, .ok (some account)⟩]
  | .update id u => id = accountId ∧ u = .revoke ∧ ∃ account ans, Withdrawn ans ∧
      h = withdrew companyId accountId account ans
  | _ => False

/-- What `disconnect` has done when it returns `Ok`. -/
def disconnectLeave (companyId accountId : Uuid) (h : Past) : Except OauthError Unit → Prop
  | .ok () =>
    (∃ account : AccountRow, account.status = .revoked ∧
      h = [⟨.fetchAccount accountId, .ok (some account)⟩]) ∨
    ∃ account ans n, Withdrawn ans ∧
      h = ⟨.update accountId .revoke, .ok n⟩ :: withdrew companyId accountId account ans
  | .error _ => True

theorem disconnect_meets (companyId accountId : Uuid) :
    Meets (.ofPast (disconnectMust companyId accountId)) (disconnect companyId accountId).run []
      fun r h => disconnectLeave companyId accountId h r := by
  simp only [disconnect, fetchAccount, sql, ask, Prog.ask, meets_run_bind, meets_run_orFail,
    meets_call, meets_ret, ofPast_must, ofPast_may, forall_eq]
  refine ⟨trivial, ?_⟩
  rintro (err | _ | account)
  · trivial
  · trivial
  simp only [Except.mapError, meets_run_ite, meets_run_bind, meets_run_answer, meets_run_pure,
    meets_call, meets_ret, ofPast_must, ofPast_may, forall_eq]
  refine ⟨fun hs => .inl ⟨account, hs, rfl⟩, fun _ => ⟨⟨account, rfl, rfl⟩, fun ans => ?_⟩⟩
  have update : Withdrawn ans → Meets (.ofPast (disconnectMust companyId accountId))
      (do let _ ← sql (ask (.update accountId .revoke)) : Flow OauthError Unit).run
      (withdrew companyId accountId account ans)
      fun r h => disconnectLeave companyId accountId h r := by
    intro hw
    simp only [sql, ask, Prog.ask, meets_run_bind, meets_run_orFail, meets_call, meets_ret,
      ofPast_must, ofPast_may, forall_eq]
    refine ⟨⟨rfl, rfl, account, ans, hw, rfl⟩, ?_⟩
    rintro (err | n)
    · trivial
    · exact .inr ⟨account, ans, n, hw, rfl⟩
  rcases ans with f | ⟨⟩
  · simp only [meets_run_ite, meets_run_bind]
    exact ⟨fun hf => meets_run_bind.mp (update hf), fun _ => trivial⟩
  · exact update trivial

/-! ## `status` and the refresh paths -/

def statusMust (_ : Past) : Op → Prop
  | .fetchAccount _ => True
  | _ => False

/-- The refresh paths update an account only inside a transaction that has claimed it. -/
def refreshMust (h : Past) : Op → Prop
  | .updateTx id _ => ∃ d, openClaim h = some d ∧ d.id = id
  | .deleteSnapshot .. | .deleteRow _ | .insertAccount _ | .update .. | .issue .. | .revoke _
  | .newUuid => False
  | _ => True

theorem status_meets {must : Past → Op → Prop} (accountId : Uuid) {h : Past}
    (hm : ∀ h, must h (.fetchAccount accountId)) :
    Meets (.ofPast must) (status accountId).run h fun _ _ => True := by
  simp only [status, fetchAccount, sql, ask, Prog.ask, meets_run_bind, meets_run_orFail, meets_call,
    meets_ret, ofPast_must, ofPast_may, forall_eq]
  refine ⟨hm _, ?_⟩
  rintro (err | _ | account) <;> trivial

section

variable {companyId : Uuid} {d : DueAccount} {summary : RefreshSummary} {h : Past}
  {must : Past → Op → Prop} (hm : ∀ {h op}, refreshMust h op → renewMust h op → must h op)

include hm

theorem expireClaimed_meets (hd : openClaim h = some d) :
    Meets (.ofPast must) (expireClaimed d.id summary).run h fun _ _ => True := by
  simp only [expireClaimed, updateTx, commit, sql, ask, Prog.ask, meets_run_bind, meets_run_orFail,
    meets_call, meets_ret, ofPast_must, ofPast_may, forall_eq]
  refine ⟨hm ⟨d, hd, rfl⟩ trivial, ?_⟩
  rintro (err | n)
  · trivial
  refine ⟨hm trivial trivial, ?_⟩
  rintro (err | ⟨⟩) <;> trivial

theorem leaveDue_meets :
    Meets (.ofPast must) (leaveDue summary).run h fun _ _ => True := by
  simp only [leaveDue, rollback, sql, ask, Prog.ask, meets_run_bind, meets_run_orFail, meets_call,
    meets_ret, ofPast_must, ofPast_may, forall_eq]
  refine ⟨hm trivial trivial, ?_⟩
  rintro (err | ⟨⟩) <;> trivial

theorem rotateClaimed_meets {prior : TokenBundle} {response : TokenResponse}
    (hd : openClaim h = some d) (hp : lastRead (d.scope companyId) h = some prior)
    (hresp : lastResponse h = some response) :
    Meets (.ofPast must) (rotateClaimed companyId d prior response summary).run h
      fun _ _ => True := by
  simp only [rotateClaimed, utcNow, ask, Prog.ask, meets_run_bind, meets_run_answer, meets_call,
    meets_ret, ofPast_must, ofPast_may, forall_eq]
  refine ⟨hm trivial trivial, fun now => ?_⟩
  refine meets_expiresAt (hm trivial trivial) (leaveDue_meets hm) fun secs t _ _ _ => ?_
  simp only [updateTx, commit, sql, ask, Prog.ask, meets_run_bind, meets_run_orFail, meets_call,
    meets_ret, ofPast_must, ofPast_may, forall_eq]
  refine ⟨hm trivial (renewMust_rotate hresp hp rfl rfl), ?_⟩
  rintro (f | cid)
  · trivial
  refine ⟨hm ⟨d, hd, rfl⟩ trivial, ?_⟩
  rintro (err | n)
  · trivial
  refine ⟨hm trivial trivial, ?_⟩
  rintro (err | ⟨⟩) <;> trivial

theorem refreshPrior_meets {prior : TokenBundle} (hd : openClaim h = some d)
    (hp : lastRead (d.scope companyId) h = some prior) :
    Meets (.ofPast must) (svc.refreshPrior lib companyId d prior summary).run h
      fun _ _ => True := by
  unfold refreshPrior
  split
  · exact expireClaimed_meets hm hd
  split
  · exact leaveDue_meets hm
  simp only [ask, Prog.ask, meets_run_bind, meets_run_answer, meets_call, meets_ret, ofPast_must,
    ofPast_may, forall_eq]
  refine ⟨hm trivial trivial, ?_⟩
  rintro (f | response)
  · simp only [meets_run_ite]
    exact ⟨fun _ => expireClaimed_meets hm hd, fun _ => leaveDue_meets hm⟩
  · exact rotateClaimed_meets hm hd hp rfl

theorem refreshClaimed_meets (hd : openClaim h = some d) :
    Meets (.ofPast must) (svc.refreshClaimed lib companyId d summary).run h fun _ _ => True := by
  simp only [refreshClaimed, ask, Prog.ask, meets_run_bind, meets_run_answer, meets_call, meets_ret,
    ofPast_must, ofPast_may, forall_eq]
  refine ⟨hm trivial trivial, ?_⟩
  rintro (f | prior)
  · simp only [meets_run_ite]
    exact ⟨fun _ => expireClaimed_meets hm hd, fun _ => leaveDue_meets hm⟩
  simp only [meets_run_bind]
  refine meets_orPanic (fun _ => hm trivial trivial) fun freshUntil _ => ?_
  simp only [utcNow, updateTx, commit, sql, ask, Prog.ask, meets_run_bind, meets_run_answer,
    meets_run_ite, meets_run_orFail, meets_call, meets_ret, ofPast_must, ofPast_may, forall_eq]
  refine ⟨hm trivial trivial, fun now => ⟨fun _ => ⟨hm ⟨d, hd, rfl⟩ trivial, ?_⟩,
    fun _ => refreshPrior_meets hm hd (if_pos rfl)⟩⟩
  rintro (err | n)
  · trivial
  refine ⟨hm trivial trivial, ?_⟩
  rintro (err | ⟨⟩) <;> trivial

theorem refreshDueLoop_meets {left : Nat} :
    Meets (.ofPast must) (svc.refreshDueLoop lib companyId left summary).run h
      fun _ _ => True := by
  induction left generalizing summary h with
  | zero => trivial
  | succ left ih =>
    simp only [refreshDueLoop, begin, sql, ask, Prog.ask, meets_run_bind, meets_run_orFail,
      meets_call, meets_ret, ofPast_must, ofPast_may, forall_eq]
    refine ⟨hm trivial trivial, ?_⟩
    rintro (err | ⟨⟩)
    · trivial
    refine ⟨hm trivial trivial, ?_⟩
    rintro (err | _ | d)
    · trivial
    · simp only [Except.mapError, commit, sql, ask, Prog.ask, meets_run_bind, meets_run_orFail,
        meets_call, meets_ret, ofPast_must, ofPast_may, forall_eq]
      refine ⟨hm trivial trivial, ?_⟩
      rintro (err | ⟨⟩) <;> trivial
    · simp only [Except.mapError, meets_run_bind]
      refine (refreshClaimed_meets hm rfl).mono ?_
      rintro (err | summary) h' -
      · trivial
      · exact ih

theorem refreshNow_meets {accountId : Uuid} :
    Meets (.ofPast must) (svc.refreshNow lib companyId accountId).run h fun _ _ => True := by
  simp only [refreshNow, begin, commit, sql, ask, Prog.ask, meets_run_bind, meets_run_orFail,
    meets_call, meets_ret, ofPast_must, ofPast_may, forall_eq]
  refine ⟨hm trivial trivial, ?_⟩
  rintro (err | ⟨⟩)
  · trivial
  refine ⟨hm trivial trivial, ?_⟩
  rintro (err | _ | d)
  · trivial
  · simp only [Except.mapError, meets_run_orFail, meets_call, meets_ret, ofPast_must, ofPast_may,
      forall_eq]
    exact ⟨hm trivial trivial, fun _ => trivial⟩
  · simp only [Except.mapError, meets_run_bind]
    exact (refreshClaimed_meets hm rfl).mono fun r _ _ => by cases r <;> trivial

theorem isDue_meets {expiresAt : Option Time} :
    Meets (.ofPast must) (svc.isDue expiresAt).run h fun _ _ => True := by
  unfold isDue
  split
  · trivial
  simp only [meets_run_bind]
  refine meets_orPanic (fun _ => hm trivial trivial) fun freshUntil _ => ?_
  exact ⟨hm trivial trivial, fun _ _ _ => trivial⟩

theorem ensureFresh_meets {accountId : Uuid} :
    Meets (.ofPast must) (svc.ensureFresh lib companyId accountId).run h fun _ _ => True := by
  have hstatus : ∀ h, Meets (.ofPast must) (status accountId).run h fun _ _ => True :=
    fun h => status_meets accountId fun _ => hm trivial trivial
  simp only [ensureFresh, fetchAccount, sql, ask, Prog.ask, meets_run_bind, meets_run_orFail,
    meets_call, meets_ret, ofPast_must, ofPast_may, forall_eq]
  refine ⟨hm trivial trivial, ?_⟩
  rintro (err | _ | account)
  · trivial
  · trivial
  simp only [Except.mapError, meets_run_ite, meets_run_bind]
  refine ⟨fun _ => trivial, fun _ => (isDue_meets hm).mono ?_⟩
  rintro (err | due) h' -
  · trivial
  refine ⟨fun _ => (refreshNow_meets hm).mono ?_, fun _ => hstatus _⟩
  rintro (err | ⟨⟩) h'' -
  · trivial
  · exact hstatus _

end

end IntegrationsOauthService

/-! ## The job -/

namespace RefreshJob

open IntegrationsOauthService (refreshMust)

variable {job : RefreshJob} {companyId : Uuid} {d : DueAccount} {report : RefreshReport} {h : Past}
  {must : Past → Op → Prop} (hm : ∀ {h op}, refreshMust h op → renewMust h op → must h op)

include hm

theorem expire_meets (hd : openClaim h = some d) :
    Meets (.ofPast must) (expire d.id report).run h fun _ _ => True := by
  simp only [expire, expireAccount, sql, ask, Prog.ask, meets_run_bind, meets_run_orFail, meets_call,
    meets_ret, ofPast_must, ofPast_may, forall_eq]
  refine ⟨hm ⟨d, hd, rfl⟩ trivial, ?_⟩
  rintro (err | n)
  · trivial
  refine ⟨hm trivial trivial, ?_⟩
  rintro (err | ⟨⟩) <;> trivial

theorem skip_meets : Meets (.ofPast must) (skip report).run h fun _ _ => True := by
  simp only [skip, sql, ask, Prog.ask, meets_run_bind, meets_run_orFail, meets_call, meets_ret,
    ofPast_must, ofPast_may, forall_eq]
  refine ⟨hm trivial trivial, ?_⟩
  rintro (err | ⟨⟩) <;> trivial

theorem mirror_meets {expiresAt : Time} (hd : openClaim h = some d) :
    Meets (.ofPast must) (mirror d.id expiresAt report).run h fun _ _ => True := by
  simp only [mirror, sql, ask, Prog.ask, meets_run_bind, meets_run_orFail, meets_call, meets_ret,
    ofPast_must, ofPast_may, forall_eq]
  refine ⟨hm ⟨d, hd, rfl⟩ trivial, ?_⟩
  rintro (err | n)
  · trivial
  simp only [Except.mapError, meets_run_ite, meets_run_bind, meets_run_orFail, meets_call, meets_ret,
    ofPast_must, ofPast_may, forall_eq]
  refine ⟨fun _ => skip_meets hm, fun _ => ⟨hm trivial trivial, ?_⟩⟩
  rintro (err | ⟨⟩) <;> trivial

theorem rotateOne_meets {bundle : TokenBundle} {now : Time} {response : TokenResponse}
    (hd : openClaim h = some d) (hp : lastRead (d.scope companyId) h = some bundle)
    (hresp : lastResponse h = some response) :
    Meets (.ofPast must) (rotateOne companyId d bundle now response report).run h
      fun _ _ => True := by
  simp only [rotateOne, meets_run_bind]
  refine meets_expiresAt (hm trivial trivial) (skip_meets hm) fun secs t _ _ _ => ?_
  simp only [ask, Prog.ask, meets_run_bind, meets_run_answer, meets_call, meets_ret, ofPast_must,
    ofPast_may, forall_eq]
  refine ⟨hm trivial (renewMust_rotate hresp hp rfl rfl), ?_⟩
  rintro (f | cid)
  · simp only [meets_run_ite]
    exact ⟨fun _ => skip_meets hm, fun _ => expire_meets hm hd⟩
  · exact mirror_meets hm hd

theorem refreshBundle_meets {endpoints : ValidatedEndpoints} {client : OAuthClientConfig}
    (hd : openClaim h = some d) :
    Meets (.ofPast must) (refreshBundle companyId endpoints client d report).run h
      fun _ _ => True := by
  simp only [refreshBundle, ask, Prog.ask, meets_run_bind, meets_run_answer, meets_call, meets_ret,
    ofPast_must, ofPast_may, forall_eq]
  refine ⟨hm trivial trivial, ?_⟩
  rintro (f | bundle)
  · simp only [meets_run_ite]
    exact ⟨fun _ => skip_meets hm, fun _ => expire_meets hm hd⟩
  dsimp only
  split
  · exact expire_meets hm hd
  simp only [utcNow, ask, Prog.ask, meets_run_bind, meets_run_answer, meets_call, meets_ret,
    ofPast_must, ofPast_may, forall_eq]
  refine ⟨hm trivial trivial, fun now => ⟨hm trivial trivial, ?_⟩⟩
  rintro (f | response)
  · simp only [meets_run_ite]
    exact ⟨fun _ => expire_meets hm hd, fun _ => skip_meets hm⟩
  · exact rotateOne_meets hm hd (if_pos rfl) rfl

theorem refreshOne_meets (hd : openClaim h = some d) :
    Meets (.ofPast must) (job.refreshOne lib companyId d report).run h fun _ _ => True := by
  unfold refreshOne
  split
  · exact skip_meets hm
  split
  · exact skip_meets hm
  · exact refreshBundle_meets hm hd

theorem refreshLoop_meets {left : Nat} {attempted : List Uuid} :
    Meets (.ofPast must) (job.refreshLoop lib companyId left attempted report).run h
      fun _ _ => True := by
  induction left generalizing attempted report h with
  | zero => trivial
  | succ left ih =>
    simp only [refreshLoop, sql, ask, Prog.ask, meets_run_bind, meets_run_orFail, meets_call,
      meets_ret, ofPast_must, ofPast_may, forall_eq]
    refine ⟨hm trivial trivial, ?_⟩
    rintro (err | ⟨⟩)
    · trivial
    refine ⟨hm trivial trivial, ?_⟩
    rintro (err | _ | d)
    · trivial
    · simp only [Except.mapError, meets_run_bind, meets_run_orFail, meets_call, meets_ret,
        ofPast_must, ofPast_may, forall_eq]
      refine ⟨hm trivial trivial, ?_⟩
      rintro (err | ⟨⟩) <;> trivial
    · simp only [Except.mapError, meets_run_bind]
      refine (refreshOne_meets hm rfl).mono ?_
      rintro (err | report) h' -
      · trivial
      · exact ih

theorem refreshForCompanies_meets (companies : List Uuid) :
    Meets (.ofPast must) (job.refreshForCompanies lib companies) h fun _ _ => True := by
  induction companies generalizing h with
  | nil => trivial
  | cons c cs ih =>
    simp only [refreshForCompanies, ask, Prog.ask, meets_bind, meets_call, meets_ret, meets_pure,
      ofPast_may, forall_eq]
    exact (refreshLoop_meets hm).mono fun _ _ _ => ⟨hm trivial trivial, fun _ => ih⟩

end RefreshJob

/-! ## The script -/

open IntegrationsOauthService

def must (lib : Crates) (svc : IntegrationsOauthService) : Call → Past → Op → Prop
  | .authorize req => authorizeMust lib svc req
  | .complete companyId req => completeMust lib svc companyId req
  | .disconnect companyId accountId => disconnectMust companyId accountId
  | .status _ => statusMust
  | .refreshDue _ | .ensureFresh .. | .refreshOauthCredentials .. | .refreshForCompanies .. =>
    refreshMust

def leave (lib : Crates) (svc : IntegrationsOauthService) : (c : Call) → Res c → Past → Prop
  | .authorize req, r, h => authorizeLeave lib svc req h r
  | .complete .., r, h => completeLeave h r
  | .disconnect companyId accountId, r, h => disconnectLeave companyId accountId h r
  | .status _, _, _ | .refreshDue _, _, _ | .ensureFresh .., _, _
  | .refreshOauthCredentials .., _, _ | .refreshForCompanies .., _, _ => True

def script (lib : Crates) (svc : IntegrationsOauthService) : Script (system lib svc) where
  must := must lib svc
  leave := leave lib svc

theorem script_holds (lib : Crates) (svc : IntegrationsOauthService) : (script lib svc).Holds := by
  intro c
  cases c <;> simp only [system, prog]
  case authorize req => exact authorize_meets req
  case complete companyId req => exact complete_meets fun h _ => h
  case disconnect companyId accountId => exact disconnect_meets companyId accountId
  case status accountId => exact status_meets accountId fun _ => trivial
  case refreshDue companyId => exact refreshDueLoop_meets fun h _ => h
  case ensureFresh companyId accountId => exact ensureFresh_meets fun h _ => h
  case refreshOauthCredentials job companyId => exact RefreshJob.refreshLoop_meets fun h _ => h
  case refreshForCompanies job companies =>
    exact RefreshJob.refreshForCompanies_meets (fun h _ => h) companies

def carries : Call → Past → Op → Prop
  | .complete .. => carryMust
  | _ => renewMust

/-- The script of what the calls store. -/
def carryScript (lib : Crates) (svc : IntegrationsOauthService) : Script (system lib svc) where
  must := carries
  leave _ _ _ := True

theorem carryScript_holds (lib : Crates) (svc : IntegrationsOauthService) :
    (carryScript lib svc).Holds := by
  intro c
  cases c <;> simp only [system, prog]
  case authorize req =>
    refine ((authorize_meets req).ofPast fun h op hop => ?_).mono fun _ _ _ => trivial
    cases op <;> trivial
  case complete companyId req => exact (complete_meets fun _ h => h).mono fun _ _ _ => trivial
  case disconnect companyId accountId =>
    refine ((disconnect_meets companyId accountId).ofPast fun h op hop => ?_).mono
      fun _ _ _ => trivial
    cases op <;> trivial
  case status accountId => exact status_meets accountId fun _ => trivial
  case refreshDue companyId => exact refreshDueLoop_meets fun _ h => h
  case ensureFresh companyId accountId => exact ensureFresh_meets fun _ h => h
  case refreshOauthCredentials job companyId => exact RefreshJob.refreshLoop_meets fun _ h => h
  case refreshForCompanies job companies =>
    exact RefreshJob.refreshForCompanies_meets (fun _ h => h) companies

end BackboneIntegrations.OAuth
