import BackboneIntegrations.OAuth.Activation
import BackboneIntegrations.OAuth.Build
import BackboneIntegrations.OAuth.SingleFlight

/-!
# Where the outbound calls go

From the configuration through the construction and the lookup by the provider of a row, an endpoint
of one provider is never handed out for an account of another one.
-/

open Interleave

namespace BackboneIntegrations.OAuth

/-- The endpoint that an operation hands to the transport, and what it is used as. -/
def endpoint? : Op → Option (EndpointKey × ValidatedEndpoint)
  | .exchange endpoint _ => some (.token, endpoint)
  | .fetchIdentity endpoint _ => some (.userinfo, endpoint)
  | _ => none

/-- The scope of a call to the credential store. -/
def scope? : Op → Option CredentialScope
  | .issue scope .. | .readToken scope | .rotate scope .. | .revoke scope => some scope
  | _ => none

/-- The provider of the account that the call has read or claimed last. -/
def handling : Past → Option String
  | [] => none
  | ⟨.fetchAccount _, .ok (some r)⟩ :: _ => r.provider
  | ⟨.claimDue .., .ok (some d)⟩ :: _ | ⟨.claimById _, .ok (some d)⟩ :: _ => d.provider
  | _ :: h => handling h

def Call.isJob : Call → Bool
  | .refreshOauthCredentials .. | .refreshForCompanies .. => true
  | _ => false

/-- The endpoints that a call uses for a provider: the job resolves them again. -/
def Call.endpoints (lib : Crates) (svc : IntegrationsOauthService) : Call → String →
    Option ValidatedEndpoints
  | .refreshOauthCredentials job _, p | .refreshForCompanies job _, p =>
    (ValidatedEndpoints.resolve lib.toUrlCrate job.registry p job.overrides).toOption
  | _, p => svc.endpoints.lookup p

/-! ## What the parts of the calls ask -/

/-- The operations of the exits of a refresh: an update of the claimed row, and the end of the
transaction. -/
def exitOp (id : Uuid) : Op → Prop
  | .updateTx id' _ => id' = id
  | .commit | .rollback => True
  | _ => False

/-- The operations of a refresh of one claimed account. -/
def claimedOp (d : DueAccount) (token : ValidatedEndpoint → Prop) : Op → Prop
  | .exchange endpoint _ => token endpoint
  | .readToken scope | .rotate scope .. => scope.provider = d.provider
  | .updateTx id _ => id = d.id
  | .utcNow | .panic | .commit | .rollback => True
  | _ => False

/-- The operations of `complete` behind its read of the account. -/
def completeOp (endpoints : ValidatedEndpoints) : Op → Prop
  | .exchange endpoint _ => endpoint = endpoints.token
  | .fetchIdentity endpoint _ => endpoint = endpoints.userinfo
  | .fetchVerifier _ | .utcNow | .panic | .readToken _ | .issue .. | .rotate .. | .update .. => True
  | _ => False

/-- The operations of `complete` behind its checks. -/
def storingOp : Op → Prop
  | .readToken _ | .issue .. | .rotate .. | .update .. => True
  | _ => False

/-- The operations of the calls that never go outside, or only to withdraw a credential. -/
def insideOp : Op → Prop
  | .exchange .. | .fetchIdentity .. => False
  | _ => True

/-- The operations of `authorize`, `status` and `disconnect`. -/
def rowOp : Op → Prop
  | .utcNow | .newUuid | .randomBytes _ | .fetchAccount _ | .begin | .deleteSnapshot .. | .deleteRow _
  | .insertAccount _ | .commit | .update .. | .revoke _ => True
  | _ => False

theorem claimedOp_of_exitOp {d : DueAccount} {token : ValidatedEndpoint → Prop} (op : Op)
    (h : exitOp d.id op) : claimedOp d token op := by
  cases op <;> first | exact h | exact h.elim

theorem insideOp_of_rowOp {op : Op} (h : rowOp op) : insideOp op := by
  cases op <;> trivial

section

variable {ε α : Type} {P : Op → Prop}

theorem asks_orPanic {o : Option α} (hp : P .panic) : (orPanic o : Flow ε α).run.Asks P := by
  cases o with
  | some a => exact True.intro
  | none => exact asks_run_answer ⟨hp, fun e => nomatch (e : Empty)⟩

theorem asks_expiresAt {response : TokenResponse} {now : Time} (hp : P .panic) :
    (expiresAt response now : Flow ε _).run.Asks P := by
  unfold expiresAt
  split
  · exact True.intro
  · exact asks_run_map (asks_orPanic hp)

theorem asks_utcNow (h : P .utcNow) : (utcNow : Flow ε Time).run.Asks P :=
  asks_run_answer (asks_ask.mpr h)

theorem asks_sql {p : Prog Sig (Except DbError α)} (h : p.Asks P) : (sql p).run.Asks P :=
  asks_run_orFail h

end

namespace IntegrationsOauthService

variable {svc : IntegrationsOauthService} {co : Uuid} {d : DueAccount} {token : ValidatedEndpoint → Prop}
  {summary : RefreshSummary}

theorem expireClaimed_asks (id : Uuid) : (expireClaimed id summary).run.Asks (exitOp id) := by
  refine asks_run_bind (asks_sql (asks_ask.mpr rfl)) fun _ => ?_
  exact asks_run_bind (asks_sql (asks_ask.mpr trivial)) fun _ => trivial

theorem leaveDue_asks (id : Uuid) : (leaveDue summary).run.Asks (exitOp id) :=
  asks_run_bind (asks_sql (asks_ask.mpr trivial)) fun _ => trivial

theorem rotateClaimed_asks {prior : TokenBundle} {response : TokenResponse} :
    (rotateClaimed co d prior response summary).run.Asks (claimedOp d token) := by
  refine asks_run_bind (asks_utcNow trivial) fun now => ?_
  refine asks_run_bind (asks_expiresAt trivial) fun expiresAt => ?_
  cases expiresAt with
  | none => exact (leaveDue_asks d.id).mono claimedOp_of_exitOp
  | some expiresAt =>
    refine asks_run_bind (asks_run_orFail (asks_ask.mpr rfl)) fun _ => ?_
    refine asks_run_bind (asks_sql (asks_ask.mpr rfl)) fun _ => ?_
    exact asks_run_bind (asks_sql (asks_ask.mpr trivial)) fun _ => trivial

section

variable {lib : Crates} {P : Op → Prop}

theorem verify_asks {token : String} (h : P .utcNow) : (svc.verify lib token).run.Asks P := by
  refine asks_run_bind asks_run_ofExcept fun state => ?_
  refine asks_run_bind (asks_utcNow h) fun now => ?_
  dsimp only
  split
  · exact asks_run_bind asks_run_throw fun _ => trivial
  · exact trivial

theorem pendingAccount_asks {state : OAuthState} (h : P (.fetchAccount state.accountId)) :
    (svc.pendingAccount lib state).run.Asks P := by
  refine asks_run_bind (asks_sql (asks_ask.mpr h)) ?_
  rintro (- | account)
  · exact trivial
  dsimp only
  split
  · exact trivial
  split
  · exact trivial
  split
  · exact asks_run_bind asks_run_ofExcept fun _ => trivial
  · exact trivial

theorem storedVerifier_asks {id : Uuid} (h : P (.fetchVerifier id)) :
    (storedVerifier id).run.Asks P := by
  refine asks_run_bind (asks_sql (asks_ask.mpr h)) fun row => ?_
  split <;> exact trivial

variable (hP : ∀ {op}, storingOp op → P op)

include hP

theorem carriedRefresh_asks {g : Grant} : (carriedRefresh co g).run.Asks P := by
  unfold carriedRefresh
  split
  · exact trivial
  · refine asks_run_bind (asks_run_answer (asks_ask.mpr (hP trivial))) ?_
    rintro (f | prior) <;> exact trivial

theorem storeBundle_asks {g : Grant} {refresh : Option String} :
    (storeBundle co g refresh).run.Asks P := by
  refine asks_run_bind (asks_run_answer (asks_ask.mpr (hP trivial))) ?_
  rintro (f | id)
  · dsimp only
    split
    · exact asks_run_bind (asks_run_orFail (asks_ask.mpr (hP trivial))) fun _ => trivial
    · exact trivial
  · exact trivial

theorem activate_asks {g : Grant} : (activate g).run.Asks P := by
  refine asks_run_bind (asks_sql (asks_ask.mpr (hP trivial))) fun updated => ?_
  dsimp only
  split
  · exact asks_run_bind asks_run_throw fun _ => trivial
  · exact trivial

theorem storing_asks (co : Uuid) (g : Grant) :
    (do
      let refresh ← carriedRefresh co g
      storeBundle co g refresh
      activate g : Flow OauthError CompleteOutcome).run.Asks P :=
  asks_run_bind (carriedRefresh_asks hP) fun _ =>
    asks_run_bind (storeBundle_asks hP) fun _ => activate_asks hP

end

/-- The token endpoint of the provider. -/
def TokenOf (svc : IntegrationsOauthService) (provider : String) (e : ValidatedEndpoint) : Prop :=
  ∃ r, svc.endpoints.lookup provider = some r ∧ e = r.token

theorem refreshPrior_asks {prior : TokenBundle} :
    (svc.refreshPrior lib co d prior summary).run.Asks (claimedOp d (svc.TokenOf d.provider)) := by
  unfold refreshPrior
  split
  · exact (expireClaimed_asks d.id).mono claimedOp_of_exitOp
  split
  · exact (leaveDue_asks d.id).mono claimedOp_of_exitOp
  rename_i endpoints clientId hendpoints
  refine asks_run_bind (asks_run_answer (asks_ask.mpr ⟨endpoints, endpointsFor_ok hendpoints, rfl⟩)) ?_
  rintro (f | response)
  · dsimp only
    split
    · exact (expireClaimed_asks d.id).mono claimedOp_of_exitOp
    · exact (leaveDue_asks d.id).mono claimedOp_of_exitOp
  · exact rotateClaimed_asks

theorem refreshClaimed_asks :
    (svc.refreshClaimed lib co d summary).run.Asks (claimedOp d (svc.TokenOf d.provider)) := by
  refine asks_run_bind (asks_run_answer (asks_ask.mpr rfl)) ?_
  rintro (f | prior)
  · dsimp only
    split
    · exact (expireClaimed_asks d.id).mono claimedOp_of_exitOp
    · exact (leaveDue_asks d.id).mono claimedOp_of_exitOp
  refine asks_run_bind (asks_orPanic trivial) fun freshUntil => ?_
  refine asks_run_bind (asks_utcNow trivial) fun now => ?_
  split
  · refine asks_run_bind (asks_sql (asks_ask.mpr rfl)) fun _ => ?_
    exact asks_run_bind (asks_sql (asks_ask.mpr trivial)) fun _ => trivial
  · exact refreshPrior_asks

end IntegrationsOauthService

namespace RefreshJob

variable {co : Uuid} {d : DueAccount} {token : ValidatedEndpoint → Prop} {report : RefreshReport}

theorem asks_sql {α : Type} {P : Op → Prop} {p : Prog Sig (Except DbError α)} (h : p.Asks P) :
    (sql p).run.Asks P := asks_run_orFail h

theorem expire_asks (id : Uuid) : (expire id report).run.Asks (exitOp id) := by
  refine asks_run_bind (asks_run_bind (asks_sql (asks_ask.mpr rfl)) fun _ => ?_) fun _ => trivial
  exact asks_sql (asks_ask.mpr trivial)

theorem skip_asks (id : Uuid) : (skip report).run.Asks (exitOp id) :=
  asks_run_bind (asks_sql (asks_ask.mpr trivial)) fun _ => trivial

theorem mirror_asks (id : Uuid) {e : Time} : (mirror id e report).run.Asks (exitOp id) := by
  refine asks_run_bind (asks_sql (asks_ask.mpr rfl)) fun mirrored => ?_
  split
  · exact skip_asks id
  · exact asks_run_bind (asks_sql (asks_ask.mpr trivial)) fun _ => trivial

theorem rotateOne_asks {bundle : TokenBundle} {now : Time} {response : TokenResponse} :
    (rotateOne co d bundle now response report).run.Asks (claimedOp d token) := by
  refine asks_run_bind (asks_expiresAt trivial) fun expiresAt => ?_
  cases expiresAt with
  | none => exact (skip_asks d.id).mono claimedOp_of_exitOp
  | some expiresAt =>
    refine asks_run_bind (asks_run_answer (asks_ask.mpr rfl)) ?_
    rintro (f | cid)
    · dsimp only
      split
      · exact (skip_asks d.id).mono claimedOp_of_exitOp
      · exact (expire_asks d.id).mono claimedOp_of_exitOp
    · exact (mirror_asks d.id).mono claimedOp_of_exitOp

theorem refreshBundle_asks {endpoints : ValidatedEndpoints} {client : OAuthClientConfig} :
    (refreshBundle co endpoints client d report).run.Asks (claimedOp d (· = endpoints.token)) := by
  refine asks_run_bind (asks_run_answer (asks_ask.mpr rfl)) ?_
  rintro (f | bundle)
  · dsimp only
    split
    · exact (skip_asks d.id).mono claimedOp_of_exitOp
    · exact (expire_asks d.id).mono claimedOp_of_exitOp
  dsimp only
  split
  · exact (expire_asks d.id).mono claimedOp_of_exitOp
  refine asks_run_bind (asks_utcNow trivial) fun now => ?_
  refine asks_run_bind (asks_run_answer (asks_ask.mpr rfl)) ?_
  rintro (f | response)
  · dsimp only
    split
    · exact (expire_asks d.id).mono claimedOp_of_exitOp
    · exact (skip_asks d.id).mono claimedOp_of_exitOp
  · exact rotateOne_asks

end RefreshJob

/-! ## The account that a call is at -/

/-- The operations that read or claim an account. -/
def Reads : Op → Prop
  | .fetchAccount _ | .claimDue .. | .claimById _ => True
  | _ => False

theorem handling_cons {ev : Event Sig} {h : Past} (hev : ¬ Reads ev.op) :
    handling (ev :: h) = handling h := by
  obtain ⟨op, ans⟩ := ev
  cases op <;> first | rfl | exact absurd trivial hev

/-- What is asked goes to the endpoints of the account that the call is at, and a job that goes outside
has resolved them. -/
structure Contained (lib : Crates) (svc : IntegrationsOauthService) (c : Call) (h : Past) (op : Op) :
    Prop where
  endpoint : ∀ key e, endpoint? op = some (key, e) →
    ∃ p r, handling h = some p ∧ c.endpoints lib svc p = some r ∧ e = r.get key
  job : c.isJob → External op → ∃ p r, handling h = some p ∧ c.endpoints lib svc p = some r ∧
    ∀ scope, scope? op = some scope → scope.provider = p

section

variable {lib : Crates} {svc : IntegrationsOauthService} {c : Call} {h : Past} {α : Type}

theorem contained_of_inside {op : Op} (hop : insideOp op) (hc : c.isJob = false) :
    Contained lib svc c h op := by
  constructor
  · intro key e he
    cases op <;> first | exact hop.elim | cases he
  · intro hjob
    simp [hc] at hjob

theorem contained_of_quiet {op : Op} (he : endpoint? op = none) (hx : ¬ External op) :
    Contained lib svc c h op := by
  constructor
  · intro key e hsome
    rw [he] at hsome
    cases hsome
  · intro _ hop
    exact absurd hop hx

theorem contained_of_claimed {d : DueAccount} {token : ValidatedEndpoint → Prop}
    (hh : handling h = some d.provider)
    (hjob : c.isJob → ∃ r, c.endpoints lib svc d.provider = some r)
    (htoken : ∀ e, token e → ∃ r, c.endpoints lib svc d.provider = some r ∧ e = r.token) {op : Op}
    (hop : claimedOp d token op) : Contained lib svc c h op := by
  constructor
  · intro key e he
    cases op with
    | exchange endpoint form =>
      cases he
      obtain ⟨r, hr, hre⟩ := htoken _ hop
      exact ⟨d.provider, r, hh, hr, hre⟩
    | fetchIdentity => exact hop.elim
    | _ => cases he
  · intro hc hx
    obtain ⟨r, hr⟩ := hjob hc
    refine ⟨d.provider, r, hh, hr, ?_⟩
    intro scope hs
    cases op <;> first | cases hs; exact hop | cases hs; exact hop.elim | cases hs

theorem claimedOp_reads {d : DueAccount} {token : ValidatedEndpoint → Prop} {op : Op}
    (hop : claimedOp d token op) : ¬ Reads op := by
  intro hr
  cases op <;> first | exact hop | exact hr

theorem claimed_meets {d : DueAccount} {token : ValidatedEndpoint → Prop} {p : Prog Sig α}
    (hp : p.Asks (claimedOp d token)) (hh : handling h = some d.provider)
    (hjob : c.isJob → ∃ r, c.endpoints lib svc d.provider = some r)
    (htoken : ∀ e, token e → ∃ r, c.endpoints lib svc d.provider = some r ∧ e = r.token) :
    Meets (.ofPast (Contained lib svc c)) p h fun _ _ => True := by
  refine (hp.meets (I := fun h => handling h = some d.provider) hh ?_ ?_).mono fun _ _ _ => trivial
  · intro h' op hh' hop
    exact contained_of_claimed hh' hjob htoken hop
  · intro h' op ans h'' hh' hop hm
    rw [ofPast_may.mp hm, handling_cons (claimedOp_reads hop), hh']

theorem inside_meets {p : Prog Sig α} (hp : p.Asks insideOp) (hc : c.isJob = false) :
    Meets (.ofPast (Contained lib svc c)) p h fun _ _ => True :=
  hp.meets (I := fun _ => True) trivial (fun _ _ _ hop => contained_of_inside hop hc)
    fun _ _ _ _ _ _ _ => trivial

/-! ## The calls -/

open IntegrationsOauthService

theorem deleteRows_asks {ids : List Uuid} : (deleteRows ids).run.Asks rowOp := by
  induction ids with
  | nil => exact True.intro
  | cons id ids ih =>
    exact asks_run_bind (asks_sql (asks_ask.mpr trivial)) fun _ => ih

theorem replaceRow_asks {row : NewAccount} : (replaceRow row).run.Asks rowOp := by
  refine asks_run_bind (asks_sql (asks_ask.mpr trivial)) fun _ => ?_
  refine asks_run_bind (asks_sql (asks_ask.mpr trivial)) fun ids => ?_
  refine asks_run_bind deleteRows_asks fun _ => ?_
  refine asks_run_bind (asks_sql (asks_ask.mpr trivial)) fun _ => ?_
  exact asks_sql (asks_ask.mpr trivial)

theorem mintText_asks {n : Nat} : (mintText lib n).run.Asks rowOp :=
  asks_run_bind (asks_run_answer (asks_ask.mpr trivial)) fun _ => trivial

theorem authorizeAdmitted_asks {a : Admitted} {verifier : Option String} :
    (svc.authorizeAdmitted lib a verifier).run.Asks rowOp := by
  refine asks_run_bind (asks_run_answer (asks_ask.mpr trivial)) fun id => ?_
  refine asks_run_bind replaceRow_asks fun _ => ?_
  refine asks_run_bind mintText_asks fun nonce => ?_
  refine asks_run_bind (asks_utcNow trivial) fun now => ?_
  refine asks_run_bind asks_run_ofExcept fun state => ?_
  split <;> trivial

theorem authorize_rows {req : AuthorizeRequest} : (svc.authorize lib req).run.Asks rowOp := by
  refine asks_run_bind asks_run_ofExcept fun a => ?_
  dsimp only
  split
  · exact asks_run_bind (asks_run_map mintText_asks) fun verifier => authorizeAdmitted_asks
  · exact authorizeAdmitted_asks

theorem status_rows {id : Uuid} : (status id).run.Asks rowOp := by
  refine asks_run_bind (asks_sql (asks_ask.mpr trivial)) fun found => ?_
  cases found <;> trivial

theorem disconnect_rows {co id : Uuid} : (disconnect co id).run.Asks rowOp := by
  refine asks_run_bind (asks_sql (asks_ask.mpr trivial)) fun found => ?_
  cases found with
  | none => exact True.intro
  | some account =>
    dsimp only
    split
    · exact True.intro
    refine asks_run_bind (asks_run_answer (asks_ask.mpr trivial)) ?_
    rintro (f | ⟨⟩)
    · dsimp only
      split
      · exact asks_run_bind (asks_sql (asks_ask.mpr trivial)) fun _ => trivial
      · exact True.intro
    · exact asks_run_bind (asks_sql (asks_ask.mpr trivial)) fun _ => trivial

theorem authorize_asks {req : AuthorizeRequest} : (svc.authorize lib req).run.Asks insideOp :=
  authorize_rows.mono fun _ => insideOp_of_rowOp

theorem status_asks {id : Uuid} : (status id).run.Asks insideOp :=
  status_rows.mono fun _ => insideOp_of_rowOp

theorem disconnect_asks {co id : Uuid} : (disconnect co id).run.Asks insideOp :=
  disconnect_rows.mono fun _ => insideOp_of_rowOp

theorem pendingAccount_meets {must : Past → Op → Prop} {state : OAuthState} {h : Past}
    (hm : must h (.fetchAccount state.accountId)) :
    Meets (.ofPast must) (svc.pendingAccount lib state).run h fun r h' =>
      ∀ account adapter endpoints clientId, r = .ok (account, adapter, endpoints, clientId) →
        handling h' = some account.provider ∧ svc.endpoints.lookup account.provider = some endpoints := by
  simp only [pendingAccount, fetchAccount, sql, ask, Prog.ask, meets_run_bind, meets_run_orFail,
    meets_call, meets_ret, ofPast_must, ofPast_may, forall_eq]
  refine ⟨hm, ?_⟩
  rintro (err | _ | account)
  · rintro _ _ _ _ ⟨⟩
  · rintro _ _ _ _ ⟨⟩
  dsimp only [Except.mapError]
  split
  · rintro _ _ _ _ ⟨⟩
  split
  · rintro _ _ _ _ ⟨⟩
  split
  · rw [meets_run_bind, meets_run_ofExcept]
    cases he : svc.endpointsFor lib account.provider with
    | error e => rintro _ _ _ _ ⟨⟩
    | ok ec =>
      obtain ⟨endpoints, clientId⟩ := ec
      intro account' adapter' endpoints' clientId' hr
      cases hr
      exact ⟨rfl, endpointsFor_ok he⟩
  · rintro _ _ _ _ ⟨⟩

theorem identify_asks {req : CompleteRequest} {state : OAuthState} {account : AccountRow}
    {adapter : ProviderAdapter} {endpoints : ValidatedEndpoints} {clientId : String}
    {verifier : Option String} :
    (svc.identify lib req state account adapter endpoints clientId verifier).run.Asks
      (completeOp endpoints) := by
  refine asks_run_bind (asks_run_orFail (asks_ask.mpr rfl)) fun response => ?_
  refine asks_run_bind (asks_utcNow trivial) fun now => ?_
  refine asks_run_bind (asks_expiresAt trivial) fun expiresAt => ?_
  cases expiresAt with
  | none => exact True.intro
  | some expiresAt =>
    refine asks_run_bind (asks_run_orFail (asks_ask.mpr rfl)) fun identity => ?_
    refine asks_run_bind asks_run_ofExcept fun _ => ?_
    exact asks_run_bind asks_run_ofExcept fun _ => trivial

theorem contained_of_complete {c : Call} (hc : c.isJob = false) {endpoints : ValidatedEndpoints}
    {p : String} {h : Past} (hh : handling h = some p) (hr : c.endpoints lib svc p = some endpoints)
    {op : Op} (hop : completeOp endpoints op) : Contained lib svc c h op := by
  constructor
  · intro key e he
    cases op with
    | exchange endpoint form =>
      cases he
      exact ⟨p, endpoints, hh, hr, hop⟩
    | fetchIdentity endpoint token =>
      cases he
      exact ⟨p, endpoints, hh, hr, hop⟩
    | _ => cases he
  · intro hjob
    simp [hc] at hjob

theorem gauntlet_contained {c : Call} (hc : c.isJob = false)
    (hends : ∀ p, c.endpoints lib svc p = svc.endpoints.lookup p) {req : CompleteRequest} {h : Past} :
    Meets (.ofPast (Contained lib svc c)) (svc.gauntlet lib req).run h fun _ _ => True := by
  have inside : ∀ {α : Type} {p : Prog Sig α} {h : Past}, p.Asks insideOp →
      Meets (.ofPast (Contained lib svc c)) p h fun _ _ => True := fun hp => inside_meets hp hc
  rw [gauntlet, meets_run_bind]
  refine (inside (verify_asks trivial)).mono ?_
  rintro (e | state) h₁ -
  · trivial
  dsimp only
  rw [meets_run_bind]
  refine (pendingAccount_meets (contained_of_inside trivial hc)).mono ?_
  rintro (e | ⟨account, adapter, endpoints, clientId⟩) h₂ hread
  · trivial
  obtain ⟨hh, hr⟩ := hread _ _ _ _ rfl
  -- From here on the call handles the provider of the account that it read.
  have rest : ∀ {α : Type} {p : Prog Sig α}, p.Asks (completeOp endpoints) →
      Meets (.ofPast (Contained lib svc c)) p h₂ fun _ _ => True := by
    intro α p hp
    refine (hp.meets (I := fun h => handling h = some account.provider) hh ?_ ?_).mono
      fun _ _ _ => trivial
    · intro h' op hh' hop
      exact contained_of_complete hc hh' (by rw [hends, hr]) hop
    · intro h' op ans h'' hh' hop hm
      rw [ofPast_may.mp hm, handling_cons, hh']
      intro hreads
      cases op <;> first | exact hop | exact hreads
  refine rest ?_
  dsimp only
  split
  · exact asks_run_bind (asks_run_map (storedVerifier_asks trivial)) fun verifier => identify_asks
  · exact identify_asks

theorem complete_contained {co : Uuid} {req : CompleteRequest} {h : Past} :
    Meets (.ofPast (Contained lib svc (.complete co req))) (svc.complete lib co req).run h
      fun _ _ => True := by
  rw [complete, meets_run_bind]
  refine (gauntlet_contained rfl fun _ => rfl).mono ?_
  rintro (e | g) h' -
  · trivial
  refine inside_meets (storing_asks ?_ co g) rfl
  intro op hop
  cases op <;> first | exact hop | trivial

/-! ### The refresh paths -/

theorem refreshClaimed_contained {c : Call} (hc : c.isJob = false)
    (hends : ∀ p, c.endpoints lib svc p = svc.endpoints.lookup p) {co : Uuid} {d : DueAccount}
    {summary : RefreshSummary} {h : Past} (hh : handling h = some d.provider) :
    Meets (.ofPast (Contained lib svc c)) (svc.refreshClaimed lib co d summary).run h fun _ _ => True := by
  refine claimed_meets refreshClaimed_asks hh ?_ ?_
  · intro hjob
    simp [hc] at hjob
  · rintro e ⟨r, hr, rfl⟩
    exact ⟨r, by rw [hends, hr], rfl⟩

theorem refreshDueLoop_contained {c : Call} (hc : c.isJob = false)
    (hends : ∀ p, c.endpoints lib svc p = svc.endpoints.lookup p) {co : Uuid} {left : Nat}
    {summary : RefreshSummary} {h : Past} :
    Meets (.ofPast (Contained lib svc c)) (svc.refreshDueLoop lib co left summary).run h fun _ _ => True := by
  induction left generalizing summary h with
  | zero => trivial
  | succ left ih =>
    simp only [refreshDueLoop, begin, sql, ask, Prog.ask, meets_run_bind, meets_run_orFail,
      meets_call, meets_ret, ofPast_must, ofPast_may, forall_eq]
    refine ⟨contained_of_inside trivial hc, ?_⟩
    rintro (err | ⟨⟩)
    · trivial
    refine ⟨contained_of_inside trivial hc, ?_⟩
    rintro (err | _ | d)
    · trivial
    · exact inside_meets (asks_run_bind (asks_sql (asks_ask.mpr trivial)) fun _ => trivial) hc
    · simp only [Except.mapError, meets_run_bind]
      refine (refreshClaimed_contained hc hends rfl).mono ?_
      rintro (err | summary) h' -
      · trivial
      · exact ih

theorem ensureFresh_contained {co id : Uuid} {h : Past} :
    Meets (.ofPast (Contained lib svc (.ensureFresh co id))) (svc.ensureFresh lib co id).run h
      fun _ _ => True := by
  have inside : ∀ {α : Type} {p : Prog Sig α} {h : Past}, p.Asks insideOp →
      Meets (.ofPast (Contained lib svc (.ensureFresh co id))) p h fun _ _ => True :=
    fun hp => inside_meets hp rfl
  simp only [ensureFresh, fetchAccount, meets_run_bind]
  refine (inside (asks_sql (asks_ask.mpr trivial))).mono ?_
  rintro (err | _ | account) h₁ -
  · trivial
  · trivial
  dsimp only
  split
  · trivial
  rw [meets_run_bind]
  refine (inside ?_).mono ?_
  · unfold isDue
    split
    · exact True.intro
    · refine asks_run_bind (asks_orPanic trivial) fun freshUntil => ?_
      exact asks_run_bind (asks_utcNow trivial) fun now => trivial
  rintro (err | due) h₂ -
  · trivial
  dsimp only
  split
  · rw [meets_run_bind]
    -- The call refreshes the account if it is due, and in any case it reads the status again.
    refine Meets.mono (Q := fun _ _ => True) ?_ ?_
    · rintro (err | ⟨⟩) h₃ -
      · trivial
      · exact inside status_asks
    simp only [refreshNow, begin, sql, ask, Prog.ask, meets_run_bind, meets_run_orFail,
      meets_call, meets_ret, ofPast_must, ofPast_may, forall_eq]
    refine ⟨contained_of_inside trivial rfl, ?_⟩
    rintro (err | ⟨⟩)
    · trivial
    refine ⟨contained_of_inside trivial rfl, ?_⟩
    rintro (err | _ | d)
    · trivial
    · exact inside (asks_sql (asks_ask.mpr trivial))
    · simp only [Except.mapError, meets_run_bind]
      refine (refreshClaimed_contained rfl (fun _ => rfl) rfl).mono ?_
      rintro (err | summary) h' - <;> trivial
  · exact inside status_asks

namespace RefreshJob

variable {job : RefreshJob}

theorem refreshOne_contained {c : Call} (hends : ∀ p, c.endpoints lib svc p =
      (ValidatedEndpoints.resolve lib.toUrlCrate job.registry p job.overrides).toOption) {co : Uuid}
    {d : DueAccount} {report : RefreshReport} {h : Past} (hh : handling h = some d.provider) :
    Meets (.ofPast (Contained lib svc c)) (job.refreshOne lib co d report).run h fun _ _ => True := by
  have skipped : Meets (.ofPast (Contained lib svc c)) (skip report).run h fun _ _ => True := by
    refine ⟨contained_of_quiet rfl id, ?_⟩
    rintro (err | ⟨⟩) h' - <;> trivial
  unfold refreshOne
  split
  · exact skipped
  rename_i endpoints hres
  split
  · exact skipped
  · have hr : c.endpoints lib svc d.provider = some endpoints := by
      rw [hends, hres]
      rfl
    refine claimed_meets refreshBundle_asks hh (fun _ => ⟨endpoints, hr⟩) ?_
    rintro e rfl
    exact ⟨endpoints, hr, rfl⟩

theorem refreshLoop_contained {c : Call} (hends : ∀ p, c.endpoints lib svc p =
      (ValidatedEndpoints.resolve lib.toUrlCrate job.registry p job.overrides).toOption) {co : Uuid}
    {left : Nat} {attempted : List Uuid} {report : RefreshReport} {h : Past} :
    Meets (.ofPast (Contained lib svc c)) (job.refreshLoop lib co left attempted report).run h
      fun _ _ => True := by
  induction left generalizing attempted report h with
  | zero => trivial
  | succ left ih =>
    simp only [refreshLoop, sql, ask, Prog.ask, meets_run_bind, meets_run_orFail,
      meets_call, meets_ret, ofPast_must, ofPast_may, forall_eq]
    refine ⟨contained_of_quiet rfl id, ?_⟩
    rintro (err | ⟨⟩)
    · trivial
    refine ⟨contained_of_quiet rfl id, ?_⟩
    rintro (err | _ | d)
    · trivial
    · refine ⟨contained_of_quiet rfl id, ?_⟩
      rintro (err | ⟨⟩) h' - <;> trivial
    · simp only [Except.mapError, meets_run_bind]
      refine (refreshOne_contained hends rfl).mono ?_
      rintro (err | report) h' -
      · trivial
      · exact ih

theorem refreshForCompanies_contained {c : Call} (hends : ∀ p, c.endpoints lib svc p =
      (ValidatedEndpoints.resolve lib.toUrlCrate job.registry p job.overrides).toOption)
    {companies : List Uuid} {h : Past} :
    Meets (.ofPast (Contained lib svc c)) (job.refreshForCompanies lib companies) h fun _ _ => True := by
  induction companies generalizing h with
  | nil => trivial
  | cons co companies ih =>
    rw [refreshForCompanies, meets_bind]
    refine (refreshLoop_contained hends).mono ?_
    intro r h' _
    rw [meets_bind, meets_ask]
    refine ⟨contained_of_quiet rfl id, ?_⟩
    intro ans h'' _
    rw [meets_bind]
    exact ih.mono fun _ _ _ => trivial

end RefreshJob

/-! ## The runs -/

/-- What is handed out in a run is contained. -/
def containment (lib : Crates) (svc : IntegrationsOauthService) : Script (system lib svc) where
  must c h op := Contained lib svc c h op
  leave _ _ _ := True

theorem containment_holds (lib : Crates) (svc : IntegrationsOauthService) :
    (containment lib svc).Holds := by
  intro c
  cases c <;> simp only [system, prog]
  case authorize req => exact inside_meets authorize_asks rfl
  case complete co req => exact complete_contained
  case disconnect co id => exact inside_meets disconnect_asks rfl
  case status id => exact inside_meets status_asks rfl
  case refreshDue co => exact refreshDueLoop_contained rfl fun _ => rfl
  case ensureFresh co id => exact ensureFresh_contained
  case refreshOauthCredentials job co => exact RefreshJob.refreshLoop_contained fun _ => rfl
  case refreshForCompanies job companies => exact RefreshJob.refreshForCompanies_contained fun _ => rfl

end

/-- The registry that the endpoints of a call come from. -/
def Call.registry : Call → ProviderRegistry
  | .refreshOauthCredentials job _ | .refreshForCompanies job _ => job.registry
  | _ => .withBuiltin

/-- The overrides that the endpoints of a call come from. -/
def Call.overrides (config : IntegrationsOauthConfig) : Call → EndpointOverrides
  | .refreshOauthCredentials job _ | .refreshForCompanies job _ => job.overrides
  | _ => config.endpoints

/-- An endpoint of a provider: it was resolved for the provider, its host is in the provider's own
allowlist, and the rules still take it. -/
structure Guarded (crate : UrlCrate) (registry : ProviderRegistry) (overrides : EndpointOverrides)
    (p : String) (key : EndpointKey) (e : ValidatedEndpoint) : Prop where
  own : ∃ r, ValidatedEndpoints.resolve crate registry p overrides = .ok r ∧ e = r.get key
  host : ∃ adapter host, registry.lookup p = some adapter ∧ e.url.host = some host ∧
    ∃ entry ∈ adapter.hostAllowlist, Within host entry
  again : e.revalidate crate registry = .ok ()

theorem guarded_of_resolve {crate : UrlCrate} (hcrate : crate.Reparses) {registry : ProviderRegistry}
    (hreg : registry.Built) {p : String} {overrides : EndpointOverrides} {r : ValidatedEndpoints}
    (h : ValidatedEndpoints.resolve crate registry p overrides = .ok r) (key : EndpointKey) :
    Guarded crate registry overrides p key (r.get key) := by
  obtain ⟨adapter, ha, hauthorize, htoken, huserinfo⟩ := ValidatedEndpoints.resolve_ok h
  obtain ⟨s, hs⟩ : ∃ s, adapter.validate crate key s = .ok (r.get key) := by
    cases key with
    | authorize => exact hauthorize
    | token => exact htoken
    | userinfo => exact huserinfo
  obtain ⟨-, hrules, -, -⟩ := validateEndpoint_ok hs
  obtain ⟨host, hhost, hentry⟩ := Url.within_of_violation hrules
  exact ⟨⟨r, h, rfl⟩, ⟨adapter, host, ha, hhost, hentry⟩,
    ValidatedEndpoint.revalidate_ok hcrate hreg ha hs⟩

theorem Call.endpoints_resolve {lib : Crates} {svc : IntegrationsOauthService}
    {config : IntegrationsOauthConfig} (hb : BuiltFrom lib.toUrlCrate config.endpoints svc) {c : Call}
    {p : String} {r : ValidatedEndpoints} (h : c.endpoints lib svc p = some r) :
    ValidatedEndpoints.resolve lib.toUrlCrate c.registry p (c.overrides config) = .ok r := by
  have ofJob : ∀ job : RefreshJob,
      (ValidatedEndpoints.resolve lib.toUrlCrate job.registry p job.overrides).toOption = some r →
      ValidatedEndpoints.resolve lib.toUrlCrate job.registry p job.overrides = .ok r := by
    intro job hjob
    cases hres : ValidatedEndpoints.resolve lib.toUrlCrate job.registry p job.overrides with
    | error e =>
      rw [hres] at hjob
      cases hjob
    | ok r' =>
      rw [hres] at hjob
      cases hjob
      rfl
  cases c with
  | refreshOauthCredentials job co => exact ofJob job h
  | refreshForCompanies job companies => exact ofJob job h
  | _ =>
    have hres := hb.endpoints p r h
    rw [hb.registry] at hres
    exact hres

/-- What an operation of a call may do outside, by what the call has read so far: an exchange goes to
the token endpoint and an identity read to the userinfo endpoint of the account's provider, and a job
goes outside only for a provider whose endpoints all resolve. -/
structure Inside (lib : Crates) (config : IntegrationsOauthConfig) (c : Call) (h : Past) (op : Op) :
    Prop where
  endpoint : ∀ key e, endpoint? op = some (key, e) →
    ∃ p, handling h = some p ∧ Guarded lib.toUrlCrate c.registry (c.overrides config) p key e
  job : c.isJob → External op → ∃ p r, handling h = some p ∧
    ValidatedEndpoints.resolve lib.toUrlCrate c.registry p (c.overrides config) = .ok r ∧
    ∀ scope, scope? op = some scope → scope.provider = p

/-- **Outbound calls stay inside the allowlist of the account's provider.** A configuration with an
endpoint that is rejected builds no service. -/
theorem outbound_inside {lib : Crates} (hcrate : lib.toUrlCrate.Reparses) (env : String → Option String)
    (config : IntegrationsOauthConfig) :
    (∀ p adapter e, ProviderRegistry.withBuiltin.lookup p = some adapter →
      ValidatedEndpoints.resolve lib.toUrlCrate .withBuiltin p config.endpoints = .error e →
      ∀ svc, IntegrationsOauthService.build lib env config ≠ .ok svc) ∧
    ∀ svc, IntegrationsOauthService.build lib env config = .ok svc →
      ∀ (init : Hub → Prop) (ok : Config (system lib svc) → Label (system lib svc) → Prop)
        (cfg cfg' : Config (system lib svc)) (t : Tid) (op : Op) (ans : Ans op) (c : Call),
      Reach (system lib svc) init ok cfg → Step (system lib svc) cfg (.op t op ans) cfg' →
      cfg.call? t = some c → c.registry.Built → Inside lib config c (cfg.events t) op := by
  constructor
  · intro p adapter e ha he svc hbuild
    have hb := builtFrom_of_build hbuild
    obtain ⟨r, hr⟩ := hb.resolves p adapter (by rw [hb.registry, ha])
    rw [hb.registry, he] at hr
    cases hr
  · intro svc hbuild init ok cfg cfg' t op ans c hr hs hc hreg
    have hb := builtFrom_of_build hbuild
    obtain ⟨c', hc', hm⟩ := (containment_holds lib svc).asked hr hs
    obtain rfl : c' = c := Option.some.inj (hc'.symm.trans hc)
    constructor
    · intro key e he
      obtain ⟨p, r, hp, hends, rfl⟩ := hm.endpoint key e he
      exact ⟨p, hp, guarded_of_resolve hcrate hreg (Call.endpoints_resolve hb hends) key⟩
    · intro hjob hx
      obtain ⟨p, r, hp, hends, hscope⟩ := hm.job hjob hx
      exact ⟨p, r, hp, Call.endpoints_resolve hb hends, hscope⟩

/-! ## A sweep of a service without overrides -/

theorem withBuiltin_providers : ProviderRegistry.withBuiltin.providers =
    ["gmail", "google_calendar", "microsoft_calendar", "outlook"] := by
  have hkeys : ProviderRegistry.withBuiltin.adapters.keys =
      ["microsoft_calendar", "google_calendar", "outlook", "gmail"] := by decide +kernel
  rw [ProviderRegistry.providers, hkeys]
  simp [List.mergeSort]

/-- One client for the two Google providers. -/
def mailConfig : IntegrationsOauthConfig :=
  { publicBase := "https://api.example.com/"
    clients := mailService.clients.insert "google_calendar" ⟨"client-1", none⟩ }

/-- The text of `mailKey`. -/
def mailSecret := String.ofList (List.replicate 32 '\x07')

def mailEnv (name : String) : Option String :=
  if name = defaultStateSecretEnv then some mailSecret else none

def googleCalendarEndpoints : ValidatedEndpoints where
  authorize := { gmailAuthorize with providerKey := "google_calendar" }
  token := { gmailToken with providerKey := "google_calendar" }
  userinfo := { gmailUserinfo with providerKey := "google_calendar" }

def outlookEndpoints : ValidatedEndpoints where
  authorize :=
    { providerKey := "outlook"
      key := .authorize
      url := ⟨"https", "", none, some "login.microsoftonline.com", none, "/common/oauth2/v2.0/authorize", none,
        none⟩
      accepted := ⟨microsoftHosts, by decide⟩ }
  token :=
    { providerKey := "outlook"
      key := .token
      url := ⟨"https", "", none, some "login.microsoftonline.com", none, "/common/oauth2/v2.0/token", none,
        none⟩
      accepted := ⟨microsoftHosts, by decide⟩ }
  userinfo :=
    { providerKey := "outlook"
      key := .userinfo
      url := ⟨"https", "", none, some "graph.microsoft.com", none, "/oidc/userinfo", none, none⟩
      accepted := ⟨microsoftHosts, by decide⟩ }

def microsoftCalendarEndpoints : ValidatedEndpoints where
  authorize := { outlookEndpoints.authorize with providerKey := "microsoft_calendar" }
  token := { outlookEndpoints.token with providerKey := "microsoft_calendar" }
  userinfo := { outlookEndpoints.userinfo with providerKey := "microsoft_calendar" }

def builtEndpoints : Table String ValidatedEndpoints :=
  (((AList.singleton "gmail" ⟨gmailAuthorize, gmailToken, gmailUserinfo⟩).insert "google_calendar"
    googleCalendarEndpoints).insert "microsoft_calendar" microsoftCalendarEndpoints).insert "outlook"
    outlookEndpoints

theorem google_calendar_resolved : ValidatedEndpoints.resolve mailCrates.toUrlCrate .withBuiltin
    "google_calendar" ∅ = .ok googleCalendarEndpoints := by decide +kernel

theorem outlook_resolved : ValidatedEndpoints.resolve mailCrates.toUrlCrate .withBuiltin "outlook" ∅ =
    .ok outlookEndpoints := by decide +kernel

theorem microsoft_calendar_resolved : ValidatedEndpoints.resolve mailCrates.toUrlCrate .withBuiltin
    "microsoft_calendar" ∅ = .ok microsoftCalendarEndpoints := by decide +kernel

def builtService : IntegrationsOauthService :=
  { mailService with
    clients := mailConfig.clients
    endpoints := builtEndpoints
    signer := ⟨mailSecret.toUTF8.data.toList⟩ }

theorem builtEndpoints_resolved : resolveAll mailCrates.toUrlCrate .withBuiltin ∅
    ["gmail", "google_calendar", "microsoft_calendar", "outlook"] ∅ = .ok builtEndpoints := by
  rw [resolveAll_cons gmail_resolved, resolveAll_cons google_calendar_resolved,
    resolveAll_cons microsoft_calendar_resolved, resolveAll_cons outlook_resolved]
  rfl

theorem builtService_built : IntegrationsOauthService.build mailCrates mailEnv mailConfig =
    .ok builtService := by
  have hvar : mailConfig.stateSecretVar mailCrates = .ok defaultStateSecretEnv := by rfl
  have hbase : (mailConfig.publicBase.map fun s => Text.trimEndMatches (Text.trim s) '/').filter
      (! ·.isEmpty) = some builtService.publicBase := by decide +kernel
  unfold IntegrationsOauthService.build
  simp only [hvar, hbase, withBuiltin_providers, bind, Except.bind]
  rw [show mailConfig.endpoints = ∅ from rfl, builtEndpoints_resolved]
  rfl

theorem mailCrates_reparses : mailCrates.toUrlCrate.Reparses := by
  intro s url h
  change parseHttps s = .ok url at h
  unfold parseHttps at h
  split at h
  · rename_i rest _
    cases h
    have htext : ("https://" ++ String.ofList (rest.takeWhile (· != '/')) ++
        String.ofList (rest.dropWhile (· != '/'))).toList =
        'h' :: 't' :: 't' :: 'p' :: 's' :: ':' :: '/' :: '/' :: rest := by
      simp [String.toList_append, List.takeWhile_append_dropWhile]
    change parseHttps _ = _
    simp only [mailCrates, Option.getD_some, parseHttps, htext]
  · cases h

def outboundRun : List (Label (system mailCrates builtService)) :=
  [.start 0 (.refreshDue 9), .op 0 .begin (.ok ()), .op 0 (.claimDue 600 []) (.ok (some dueAccount)),
    .op 0 (.readToken mailScope) (.ok mailBundle), .op 0 .utcNow (3300000000 : Int)]

theorem outboundRun_runs : (replay (fun _ _ => true) (.init flightHub)
    outboundRun).any (fun cfg : Config (system mailCrates builtService) =>
      (fire cfg (.op 0 (.exchange gmailToken mailRefreshForm) (.ok mailResponse))).isSome) = true := by
  decide +kernel

theorem outbound_inside_mailbox : ∃ cfg : Config (system mailCrates builtService),
    cfg.hist = outboundRun.reverse ∧ Inside mailCrates mailConfig (.refreshDue 9) (cfg.events 0)
      (.exchange gmailToken mailRefreshForm) := by
  obtain ⟨cfg, hr, hh, hfire⟩ : ∃ cfg, Reach (system mailCrates builtService)
      (· = flightHub) (fun _ _ => true) cfg ∧ cfg.hist = outboundRun.reverse ∧
        (fire cfg (.op 0 (.exchange gmailToken mailRefreshForm) (.ok mailResponse))).isSome := by
    refine Reach.exists_of_replay ?_ outboundRun_runs
    rfl
  obtain ⟨cfg', hcfg'⟩ := Option.isSome_iff_exists.mp hfire
  have hc : cfg.call? 0 = some (.refreshDue 9) := hr.call_of_start (by simp [hh, outboundRun])
  exact ⟨cfg, hh, (outbound_inside mailCrates_reparses mailEnv mailConfig).2 _ builtService_built _ _ _ _
    _ _ _ _ hr (step_of_fire hcfg') hc ProviderRegistry.withBuiltin_built⟩

end BackboneIntegrations.OAuth
