import BackboneIntegrations.Interleave.Renaming
import BackboneIntegrations.OAuth.Mirror
import BackboneIntegrations.OAuth.Outbound

/-!
# Where the tokens go

A map `f` replaces every access token and refresh token that the provider and the store hand out. The
flow hands tokens on and never looks into them: the replaced run asks the same statements, leaves the
same rows, and returns the same results.
-/

open Interleave

namespace BackboneIntegrations.OAuth

/-! ## The replaced tokens -/

def TokenBundle.rename (f : String → String) (b : TokenBundle) : TokenBundle :=
  { b with accessToken := f b.accessToken, refreshToken := b.refreshToken.map f }

def TokenResponse.rename (f : String → String) (r : TokenResponse) : TokenResponse :=
  { r with accessToken := f r.accessToken, refreshToken := r.refreshToken.map f }

def TokenRequestForm.rename (f : String → String) (form : TokenRequestForm) : TokenRequestForm :=
  { form with refreshToken := form.refreshToken.map f }

def Credential.rename (f : String → String) (c : Credential) : Credential :=
  { c with bundle := c.bundle.rename f }

/-- Everything but the tokens that an operation hands on stays. -/
def Op.rename (f : String → String) : Op → Op
  | .exchange endpoint form => .exchange endpoint (form.rename f)
  | .fetchIdentity endpoint accessToken => .fetchIdentity endpoint (f accessToken)
  | .issue scope purpose bundle expiresAt => .issue scope purpose (bundle.rename f) expiresAt
  | .rotate scope bundle expiresAt => .rotate scope (bundle.rename f) expiresAt
  | op => op

def renameAns (f : String → String) : (op : Op) → Ans op → Ans (op.rename f)
  | .exchange .., ans => ans.map (TokenResponse.rename f)
  | .readToken _, ans => ans.map (TokenBundle.rename f)
  | .utcNow, ans | .newUuid, ans | .randomBytes _, ans | .panic, ans | .fetchAccount _, ans
  | .fetchVerifier _, ans | .begin, ans | .deleteSnapshot .., ans | .deleteRow _, ans
  | .insertAccount _, ans | .claimDue .., ans | .claimById _, ans | .updateTx .., ans | .commit, ans
  | .rollback, ans | .drop, ans | .update .., ans | .fetchIdentity .., ans | .issue .., ans
  | .rotate .., ans | .revoke _, ans => ans

def tokenMap (f : String → String) : Renaming Sig Sig := ⟨Op.rename f, renameAns f⟩

def Hub.rename (f : String → String) (w : Hub) : Hub :=
  { w with credentials := w.credentials.map (Credential.rename f), dead := w.dead.map f }

def Env.rename (f : String → String) : Env → Env
  | .tick clock => .tick clock
  | .kill token => .kill (f token)

variable {f : String → String} {ε α β γ δ : Type}

/-! ## Programs with replaced tokens -/

/-- One program up to the tokens, with results that `R` relates. -/
def Twins (f : String → String) (R : α → β → Prop) (p : Flow ε α) (p' : Flow ε β) : Prop :=
  Twin (tokenMap f) (Alike R) p.run p'.run

namespace Twins

variable {R : α → β → Prop} {Q : γ → δ → Prop}

theorem bind {p : Flow ε α} {p' : Flow ε β} {k : α → Flow ε γ} {k' : β → Flow ε δ}
    (h : Twins f R p p') (hk : ∀ a b, R a b → Twins f Q (k a) (k' b)) :
    Twins f Q (p >>= k) (p' >>= k') := twin_run_bind h hk

theorem refl {p : Flow ε α} (h : p.run.Asks (tokenMap f).Fixes) : Twins f Eq p p := h.twin_run

theorem pure {a : α} {b : β} (h : R a b) : Twins f R (pure a : Flow ε α) (pure b) := twin_run_pure h

theorem refl_bind {p : Flow ε α} {k : α → Flow ε γ} {k' : α → Flow ε δ}
    (h : p.run.Asks (tokenMap f).Fixes) (hk : ∀ a, Twins f Q (k a) (k' a)) :
    Twins f Q (p >>= k) (p >>= k') := by
  refine (refl h).bind ?_
  rintro a _ rfl
  exact hk a

end Twins

theorem twins_answer (op : Op) :
    Twins f (fun a b => b = renameAns f op a) (Prog.answer (ask op) : Flow ε _)
      (Prog.answer (ask (op.rename f))) := twin_run_answer (twin_ask (tokenMap f) op)

theorem fixes_of_rowOp {op : Op} (h : rowOp op) : (tokenMap f).Fixes op := by
  cases op with
  | exchange | fetchIdentity | issue | rotate | readToken => exact h.elim
  | _ => exact ⟨rfl, fun _ => rfl⟩

/-! ## The store -/

theorem Credential.rename_isCurrent (c : Credential) (scope : CredentialScope) :
    (c.rename f).IsCurrent scope ↔ c.IsCurrent scope := Iff.rfl

theorem Hub.rename_current (w : Hub) (scope : CredentialScope) :
    (w.rename f).current scope = (w.current scope).map (Credential.rename f) := by
  unfold current rename
  simp only [List.find?_map]
  rfl

theorem Hub.rename_withdraw (w : Hub) (scope : CredentialScope) :
    (w.withdraw scope).rename f = (w.rename f).withdraw scope := by
  simp only [rename, withdraw, List.map_map, Hub.mk.injEq, true_and, and_true]
  refine List.map_congr_left fun c _ => ?_
  simp only [Function.comp_apply, Credential.rename_isCurrent]
  split <;> rfl

theorem Hub.rename_apply (w : Hub) (wr : Write) : (w.apply wr).rename f = (w.rename f).apply wr := by
  rcases wr with id | row | ⟨id, u, now⟩
  · rfl
  · rfl
  · simp only [apply, show (w.rename f).accounts = w.accounts from rfl]
    split <;> rfl

theorem Hub.rename_commit (w : Hub) (t : Tid) : (w.commit t).rename f = (w.rename f).commit t := by
  have hfold : ∀ (ws : List Write) (w : Hub), (ws.foldl apply w).rename f = ws.foldl apply (w.rename f) := by
    intro ws
    induction ws with
    | nil => intro w; rfl
    | cons wr ws ih => intro w; rw [List.foldl_cons, ih, rename_apply]; rfl
  simp only [commit, show (w.rename f).txs = w.txs from rfl, ← hfold]
  rfl

section

variable {w w' : Hub} {t : Tid}

theorem Hub.rename_accounts : (w.rename f).accounts = w.accounts := rfl
theorem Hub.rename_txs : (w.rename f).txs = w.txs := rfl
theorem Hub.rename_claimedTarget : (w.rename f).claimedTarget = w.claimedTarget := rfl
theorem Hub.rename_statusTarget : (w.rename f).statusTarget = w.statusTarget := rfl

/-- The replaced world answers the replaced operation. -/
theorem Hub.next_rename {op : Op} {ans : Ans op} (h : Hub.next t op ans w = some w') :
    Hub.next t (op.rename f) (renameAns f op ans) (w.rename f) = some (w'.rename f) := by
  cases op with
  | utcNow | randomBytes n =>
    simp only [next, Option.ite_none_right_eq_some, Option.some.injEq] at h
    obtain ⟨hc, rfl⟩ := h
    exact if_pos hc
  | panic => cases ans
  | newUuid =>
    simp only [next] at h
    split at h <;> cases h
    exact if_neg ‹_›
  | exchange endpoint form | fetchIdentity endpoint token | readToken scope =>
    cases h
    rfl
  | fetchAccount id | fetchVerifier id | deleteSnapshot provider accountRef =>
    rcases ans with err | a
    · cases h
      rfl
    · simp only [next, Option.ite_none_right_eq_some, Option.some.injEq] at h
      obtain ⟨hc, rfl⟩ := h
      exact if_pos hc
  | begin | rollback =>
    rcases ans with err | ⟨⟩ <;> cases h <;> rfl
  | commit =>
    rcases ans with err | ⟨⟩ <;> cases h
    · rfl
    · exact congrArg some (rename_commit w t).symm
  | drop =>
    cases h
    rfl
  | deleteRow id =>
    rcases ans with err | n
    · cases h
      rfl
    · simp only [next] at h
      split at h <;> split at h <;> cases h
      all_goals
        simp only [Op.rename, renameAns, next, rename_accounts, rename_txs, *]
        exact if_pos (by simp [*])
  | insertAccount row =>
    rcases ans with err | ⟨⟩
    · cases h
      rfl
    · simp only [next] at h
      split at h <;> cases h
      exact if_pos ‹_›
  | claimDue window attempted =>
    rcases ans with err | _ | d
    · cases h
      rfl
    · simp only [next] at h
      split at h <;> cases h
      exact if_pos ‹_›
    · simp only [next] at h
      split at h
      · rename_i hrow
        split at h <;> cases h
        simp only [Op.rename, renameAns, next, rename_accounts, hrow]
        exact if_pos ‹_›
      · cases h
  | claimById id =>
    rcases ans with err | _ | d
    · cases h
      rfl
    · simp only [next] at h
      split at h
      · rename_i hrow
        split at h <;> cases h
        simp only [Op.rename, renameAns, next, rename_accounts, hrow]
        exact if_neg ‹_›
      · cases h
        simp only [Op.rename, renameAns, next, rename_accounts, *]
    · simp only [next] at h
      split at h
      · rename_i hrow
        split at h <;> cases h
        simp only [Op.rename, renameAns, next, rename_accounts, hrow]
        exact if_pos ‹_›
      · cases h
  | updateTx id u =>
    rcases ans with err | n
    · cases h
      rfl
    · simp only [next] at h
      split at h <;> split at h <;> cases h
      all_goals
        simp only [Op.rename, renameAns, next, rename_claimedTarget, *]
        exact if_pos (by simp [rename_txs, *])
  | update id u =>
    rcases ans with err | n
    · cases h
      rfl
    · simp only [next] at h
      split at h <;> split at h <;> cases h
      all_goals
        simp only [Op.rename, renameAns, next, rename_statusTarget, *]
        exact if_pos (by simp [rename_txs, *])
  | issue scope purpose bundle expiresAt =>
    rcases ans with err | cid <;> cases h <;> rfl
  | rotate scope bundle expiresAt =>
    rcases ans with err | cid <;> cases h
    · rfl
    · exact congrArg (fun w : Hub => some (w.store scope purposeOauthToken (bundle.rename f) expiresAt))
        (rename_withdraw w scope).symm
  | revoke scope =>
    rcases ans with err | ⟨⟩ <;> cases h
    · rfl
    · exact congrArg some (rename_withdraw w scope).symm

end

theorem Hub.storePort_rename {w : Hub} {op : Op} {ans : Ans op} (h : w.StorePort op ans) :
    (w.rename f).StorePort (op.rename f) (renameAns f op ans) := by
  cases op with
  | issue scope purpose bundle expiresAt =>
    rcases ans with err | cid
    · rfl
    · simpa [StorePort, Op.rename, renameAns, rename_current] using h
  | rotate scope bundle expiresAt =>
    rcases ans with err | cid
    · rfl
    · simpa [StorePort, Op.rename, renameAns, rename_current] using h
  | revoke scope =>
    rcases ans with err | ⟨⟩
    · simp only [StorePort, Op.rename, renameAns, rename, List.all_map] at h ⊢
      exact h
    · rfl
  | readToken scope =>
    rcases ans with err | b
    · simp only [StorePort, Op.rename, renameAns, Except.map, rename_current, Option.any_map,
        Option.isNone_map] at h ⊢
      exact h
    · simp only [StorePort, Op.rename, renameAns, Except.map, rename_current, Option.any_map] at h ⊢
      obtain ⟨c, hc, hb⟩ := (Option.any_eq_true ..).mp h
      simp only [Bool.and_eq_true, beq_iff_eq] at hb
      refine (Option.any_eq_true ..).mpr ⟨c, hc, ?_⟩
      simpa [Credential.rename, rename, hb.1] using hb.2
  | _ => rfl

/-! ## What hands tokens on -/

theorem twins_exchange (g : TransportFailure → ε) (endpoint : ValidatedEndpoint) (form : TokenRequestForm) :
    Twins f (fun r r' => r' = r.rename f) (Prog.orFail g (ask (.exchange endpoint form)))
      (Prog.orFail g (ask (.exchange endpoint (form.rename f)))) :=
  twin_run_orFail ((twin_ask (tokenMap f) (.exchange endpoint form)).mono fun _ _ h => .of_map h)

theorem twins_fetchIdentity (g : TransportFailure → ε) (endpoint : ValidatedEndpoint) (token : String) :
    Twins f Eq (Prog.orFail g (ask (.fetchIdentity endpoint token)))
      (Prog.orFail g (ask (.fetchIdentity endpoint (f token)))) := by
  refine twin_run_orFail ((twin_ask (tokenMap f) (.fetchIdentity endpoint token)).mono ?_)
  rintro (e | identity) _ rfl
  · exact .error e
  · exact .ok rfl

theorem twins_rotate (g : OAuthCredentialFailure → ε) (scope : CredentialScope) (b : TokenBundle)
    (e : Time) :
    Twins f Eq (Prog.orFail g (ask (.rotate scope b e)))
      (Prog.orFail g (ask (.rotate scope (b.rename f) e))) := by
  refine twin_run_orFail ((twin_ask (tokenMap f) (.rotate scope b e)).mono ?_)
  rintro (e | id) _ rfl
  · exact .error e
  · exact .ok rfl

/-! ## The flows -/

namespace IntegrationsOauthService

variable {lib : Crates} {svc : IntegrationsOauthService} {co : Uuid} {d : DueAccount}
  {summary : RefreshSummary}

def Grant.rename (f : String → String) (g : Grant) : Grant := { g with response := g.response.rename f }

theorem identify_twins (req : CompleteRequest) (state : OAuthState) (account : AccountRow)
    (adapter : ProviderAdapter) (endpoints : ValidatedEndpoints) (clientId : String)
    (verifier : Option String) :
    Twins f (fun g g' => g' = g.rename f)
      (svc.identify lib req state account adapter endpoints clientId verifier)
      (svc.identify lib req state account adapter endpoints clientId verifier) := by
  unfold identify
  refine (twins_exchange _ _ _).bind ?_
  rintro response _ rfl
  refine .refl_bind (asks_utcNow ⟨rfl, fun _ => rfl⟩) fun now => ?_
  refine .refl_bind (asks_expiresAt ⟨rfl, fun _ => rfl⟩) fun expiresAt => ?_
  rcases expiresAt with _ | expiresAt
  · exact twin_run_throw _
  refine (twins_fetchIdentity _ _ _).bind ?_
  rintro identity _ rfl
  refine .refl_bind asks_run_ofExcept fun _ => ?_
  refine .refl_bind asks_run_ofExcept fun _ => ?_
  exact .pure rfl

theorem gauntlet_twins (req : CompleteRequest) :
    Twins f (fun g g' => g' = g.rename f) (svc.gauntlet lib req) (svc.gauntlet lib req) := by
  unfold gauntlet
  refine .refl_bind (verify_asks ⟨rfl, fun _ => rfl⟩) fun state => ?_
  refine .refl_bind (pendingAccount_asks ⟨rfl, fun _ => rfl⟩) ?_
  rintro ⟨account, adapter, endpoints, clientId⟩
  dsimp only
  split
  · exact .refl_bind (asks_run_map (storedVerifier_asks ⟨rfl, fun _ => rfl⟩)) fun _ => identify_twins ..
  · exact .refl_bind trivial fun _ => identify_twins ..

theorem carriedRefresh_twins (g : Grant) :
    Twins f (fun r r' => r' = r.map f) (carriedRefresh co g) (carriedRefresh co (g.rename f)) := by
  unfold carriedRefresh
  simp only [Grant.rename, TokenResponse.rename]
  rcases g.response.refreshToken with _ | r
  · refine (twins_answer (.readToken (g.scope co))).bind ?_
    rintro (e | prior) _ rfl
    · exact .pure rfl
    · exact .pure rfl
  · exact .pure rfl

theorem storeBundle_twins (g : Grant) (refresh : Option String) :
    Twins f Eq (storeBundle co g refresh) (storeBundle co (g.rename f) (refresh.map f)) := by
  unfold storeBundle
  refine (twins_answer (.issue (g.scope co) purposeOauthToken (g.bundle refresh) g.expiresAt)).bind ?_
  rintro (e | id) _ rfl
  · simp only [renameAns]
    split
    · refine (twins_rotate _ _ _ _).bind ?_
      rintro _ _ rfl
      exact .pure rfl
    · exact twin_run_throw _
  · exact .pure rfl

theorem complete_twins (req : CompleteRequest) :
    Twins f Eq (svc.complete lib co req) (svc.complete lib co req) := by
  unfold complete
  refine (gauntlet_twins req).bind ?_
  rintro g _ rfl
  refine (carriedRefresh_twins g).bind ?_
  rintro refresh _ rfl
  refine (storeBundle_twins g refresh).bind ?_
  rintro _ _ rfl
  refine Twins.refl (asks_run_bind (asks_sql (asks_ask.mpr ⟨rfl, fun _ => rfl⟩)) fun updated => ?_)
  dsimp only
  split
  · exact asks_run_bind asks_run_throw fun _ => trivial
  · exact trivial

/-! ### The refresh paths -/

theorem expireClaimed_twins (id : Uuid) :
    Twins f Eq (expireClaimed id summary) (expireClaimed id summary) := by
  refine .refl (asks_run_bind (asks_sql (asks_ask.mpr ⟨rfl, fun _ => rfl⟩)) fun _ => ?_)
  exact asks_run_bind (asks_sql (asks_ask.mpr ⟨rfl, fun _ => rfl⟩)) fun _ => trivial

theorem leaveDue_twins : Twins f Eq (leaveDue summary) (leaveDue summary) :=
  .refl (asks_run_bind (asks_sql (asks_ask.mpr ⟨rfl, fun _ => rfl⟩)) fun _ => trivial)

theorem rotateClaimed_twins (prior : TokenBundle) (response : TokenResponse) :
    Twins f Eq (rotateClaimed co d prior response summary)
      (rotateClaimed co d (prior.rename f) (response.rename f) summary) := by
  unfold rotateClaimed
  refine .refl_bind (asks_utcNow ⟨rfl, fun _ => rfl⟩) fun now => ?_
  refine .refl_bind (asks_expiresAt ⟨rfl, fun _ => rfl⟩) fun expiresAt => ?_
  rcases expiresAt with _ | expiresAt
  · exact leaveDue_twins
  have hbundle : TokenBundle.rename f ⟨response.accessToken, response.refreshToken.or prior.refreshToken,
        expiresAt, response.scope.or prior.scope⟩ =
      ⟨(response.rename f).accessToken, (response.rename f).refreshToken.or (prior.rename f).refreshToken,
        expiresAt, (response.rename f).scope.or (prior.rename f).scope⟩ := by
    simp [TokenBundle.rename, TokenResponse.rename, Option.map_or]
  dsimp only
  rw [← hbundle]
  refine (twins_rotate _ _ _ _).bind ?_
  rintro _ _ rfl
  refine .refl (asks_run_bind (asks_sql (asks_ask.mpr ⟨rfl, fun _ => rfl⟩)) fun _ => ?_)
  exact asks_run_bind (asks_sql (asks_ask.mpr ⟨rfl, fun _ => rfl⟩)) fun _ => trivial

theorem refreshPrior_twins (prior : TokenBundle) :
    Twins f Eq (svc.refreshPrior lib co d prior summary)
      (svc.refreshPrior lib co d (prior.rename f) summary) := by
  have hrefresh : (prior.rename f).refreshToken = prior.refreshToken.map f := rfl
  unfold refreshPrior
  rw [hrefresh]
  rcases prior.refreshToken with _ | refreshToken
  · exact expireClaimed_twins d.id
  simp only [Option.map_some]
  split
  · exact leaveDue_twins
  rename_i endpoints clientId _
  refine (twins_answer (.exchange endpoints.token
    (svc.refreshGrantForm d.provider clientId refreshToken))).bind ?_
  rintro (e | response) _ rfl
  · simp only [renameAns, Except.map]
    split
    · exact expireClaimed_twins d.id
    · exact leaveDue_twins
  · exact rotateClaimed_twins prior response

theorem refreshClaimed_twins :
    Twins f Eq (svc.refreshClaimed lib co d summary) (svc.refreshClaimed lib co d summary) := by
  unfold refreshClaimed
  refine (twins_answer (.readToken (d.scope co))).bind ?_
  rintro (e | prior) _ rfl
  · simp only [renameAns, Except.map]
    split
    · exact expireClaimed_twins d.id
    · exact leaveDue_twins
  refine .refl_bind (asks_orPanic ⟨rfl, fun _ => rfl⟩) fun freshUntil => ?_
  refine .refl_bind (asks_utcNow ⟨rfl, fun _ => rfl⟩) fun now => ?_
  split
  · refine .refl (asks_run_bind (asks_sql (asks_ask.mpr ⟨rfl, fun _ => rfl⟩)) fun _ => ?_)
    exact asks_run_bind (asks_sql (asks_ask.mpr ⟨rfl, fun _ => rfl⟩)) fun _ => trivial
  · exact refreshPrior_twins prior

theorem refreshDueLoop_twins (left : Nat) (summary : RefreshSummary) :
    Twins f Eq (svc.refreshDueLoop lib co left summary) (svc.refreshDueLoop lib co left summary) := by
  induction left generalizing summary with
  | zero => exact .pure rfl
  | succ left ih =>
    unfold refreshDueLoop
    refine .refl_bind (asks_sql (asks_ask.mpr ⟨rfl, fun _ => rfl⟩)) fun _ => ?_
    refine .refl_bind (asks_sql (asks_ask.mpr ⟨rfl, fun _ => rfl⟩)) fun claimed => ?_
    rcases claimed with _ | d
    · exact .refl (asks_run_bind (asks_sql (asks_ask.mpr ⟨rfl, fun _ => rfl⟩)) fun _ => trivial)
    · refine refreshClaimed_twins.bind ?_
      rintro summary' _ rfl
      exact ih summary'

theorem refreshNow_twins (id : Uuid) : Twins f Eq (svc.refreshNow lib co id) (svc.refreshNow lib co id) := by
  unfold refreshNow
  refine .refl_bind (asks_sql (asks_ask.mpr ⟨rfl, fun _ => rfl⟩)) fun _ => ?_
  refine .refl_bind (asks_sql (asks_ask.mpr ⟨rfl, fun _ => rfl⟩)) fun claimed => ?_
  rcases claimed with _ | d
  · exact .refl (asks_sql (asks_ask.mpr ⟨rfl, fun _ => rfl⟩))
  · refine refreshClaimed_twins.bind ?_
    rintro _ _ rfl
    exact .pure rfl

theorem isDue_fixes {expiresAt : Option Time} :
    (svc.isDue expiresAt).run.Asks (tokenMap f).Fixes := by
  unfold isDue
  rcases expiresAt with _ | e
  · trivial
  · refine asks_run_bind (asks_orPanic ⟨rfl, fun _ => rfl⟩) fun freshUntil => ?_
    exact asks_run_bind (asks_utcNow ⟨rfl, fun _ => rfl⟩) fun _ => trivial

theorem ensureFresh_twins (id : Uuid) :
    Twins f Eq (svc.ensureFresh lib co id) (svc.ensureFresh lib co id) := by
  unfold ensureFresh
  refine .refl_bind (asks_sql (asks_ask.mpr ⟨rfl, fun _ => rfl⟩)) fun found => ?_
  rcases found with _ | account
  · exact twin_run_throw _
  dsimp only
  split
  · exact .pure rfl
  refine .refl_bind isDue_fixes fun due => ?_
  split
  · refine (refreshNow_twins id).bind ?_
    rintro _ _ rfl
    exact .refl (status_rows.mono fun _ => fixes_of_rowOp)
  · exact .refl (status_rows.mono fun _ => fixes_of_rowOp)

end IntegrationsOauthService

/-! ### The job -/

namespace RefreshJob

variable {lib : Crates} {job : RefreshJob} {co : Uuid} {d : DueAccount} {report : RefreshReport}

theorem expire_twins (id : Uuid) : Twins f Eq (expire id report) (expire id report) := by
  refine .refl (asks_run_bind (asks_run_bind (asks_sql (asks_ask.mpr ⟨rfl, fun _ => rfl⟩)) fun _ => ?_)
    fun _ => trivial)
  exact asks_sql (asks_ask.mpr ⟨rfl, fun _ => rfl⟩)

theorem skip_twins : Twins f Eq (skip report) (skip report) :=
  .refl (asks_run_bind (asks_sql (asks_ask.mpr ⟨rfl, fun _ => rfl⟩)) fun _ => trivial)

theorem mirror_twins (id : Uuid) (e : Time) : Twins f Eq (mirror id e report) (mirror id e report) := by
  unfold mirror
  refine .refl_bind (asks_sql (asks_ask.mpr ⟨rfl, fun _ => rfl⟩)) fun mirrored => ?_
  split
  · exact skip_twins
  · exact .refl (asks_run_bind (asks_sql (asks_ask.mpr ⟨rfl, fun _ => rfl⟩)) fun _ => trivial)

theorem successor_rename (b : TokenBundle) (response : TokenResponse) (e : Time) :
    (successor b response e).rename f = successor (b.rename f) (response.rename f) e := by
  simp [successor, TokenBundle.rename, TokenResponse.rename, Option.map_or]

theorem rotateOne_twins (b : TokenBundle) (now : Time) (response : TokenResponse) :
    Twins f Eq (rotateOne co d b now response report)
      (rotateOne co d (b.rename f) now (response.rename f) report) := by
  unfold rotateOne
  refine .refl_bind (asks_expiresAt ⟨rfl, fun _ => rfl⟩) fun expiresAt => ?_
  rcases expiresAt with _ | expiresAt
  · exact skip_twins
  dsimp only
  rw [← successor_rename]
  refine (twins_answer (.rotate (d.scope co) (successor b response expiresAt) expiresAt)).bind ?_
  rintro (e | id) _ rfl
  · simp only [renameAns]
    split
    · exact skip_twins
    · exact expire_twins d.id
  · exact mirror_twins d.id expiresAt

theorem refreshBundle_twins (endpoints : ValidatedEndpoints) (client : OAuthClientConfig) :
    Twins f Eq (refreshBundle co endpoints client d report) (refreshBundle co endpoints client d report) := by
  unfold refreshBundle
  refine (twins_answer (.readToken (d.scope co))).bind ?_
  rintro (e | b) _ rfl
  · simp only [renameAns, Except.map]
    split
    · exact skip_twins
    · exact expire_twins d.id
  have hrefresh : (b.rename f).refreshToken = b.refreshToken.map f := rfl
  simp only [renameAns, Except.map, hrefresh]
  rcases b.refreshToken with _ | refreshToken
  · exact expire_twins d.id
  refine .refl_bind (asks_utcNow ⟨rfl, fun _ => rfl⟩) fun now => ?_
  refine (twins_answer (.exchange endpoints.token
    (refreshForm client.clientId client.clientSecret refreshToken))).bind ?_
  rintro (e | response) _ rfl
  · simp only [renameAns, Except.map]
    split
    · exact expire_twins d.id
    · exact skip_twins
  · exact rotateOne_twins b now response

theorem refreshOne_twins :
    Twins f Eq (job.refreshOne lib co d report) (job.refreshOne lib co d report) := by
  unfold refreshOne
  split
  · exact skip_twins
  split
  · exact skip_twins
  · exact refreshBundle_twins ..

theorem refreshLoop_twins (left : Nat) (attempted : List Uuid) (report : RefreshReport) :
    Twins f Eq (job.refreshLoop lib co left attempted report)
      (job.refreshLoop lib co left attempted report) := by
  induction left generalizing attempted report with
  | zero => exact .pure rfl
  | succ left ih =>
    unfold refreshLoop
    refine .refl_bind (asks_sql (asks_ask.mpr ⟨rfl, fun _ => rfl⟩)) fun _ => ?_
    refine .refl_bind (asks_sql (asks_ask.mpr ⟨rfl, fun _ => rfl⟩)) fun claimed => ?_
    rcases claimed with _ | d
    · exact .refl (asks_run_bind (asks_sql (asks_ask.mpr ⟨rfl, fun _ => rfl⟩)) fun _ => trivial)
    · refine refreshOne_twins.bind ?_
      rintro report' _ rfl
      exact ih _ report'

theorem refreshForCompanies_twins (companies : List Uuid) :
    Twin (tokenMap f) Eq (job.refreshForCompanies lib companies) (job.refreshForCompanies lib companies) := by
  induction companies with
  | nil => exact .ret rfl
  | cons company companies ih =>
    unfold refreshForCompanies
    refine Twin.bind (refreshLoop_twins _ _ _) fun r r' h => ?_
    rw [h.eq]
    refine Twin.bind (twin_ask (tokenMap f) .drop) fun _ _ _ => ?_
    refine ih.bind ?_
    rintro out _ rfl
    exact .ret rfl

end RefreshJob

/-! ## Runs -/

theorem prog_twin (lib : Crates) (svc : IntegrationsOauthService) (c : Call) :
    Twin (tokenMap f) Eq (prog lib svc c) (prog lib svc c) := by
  have results : ∀ {ε α : Type} {p : Flow ε α}, Twins f Eq p p → Twin (tokenMap f) Eq p.run p.run :=
    fun h => Twin.mono (fun _ _ h => h.eq) h
  cases c with
  | authorize req => exact (authorize_rows.mono fun _ => fixes_of_rowOp).twin
  | complete companyId req => exact results (IntegrationsOauthService.complete_twins req)
  | disconnect companyId id => exact (disconnect_rows.mono fun _ => fixes_of_rowOp).twin
  | status id => exact (status_rows.mono fun _ => fixes_of_rowOp).twin
  | refreshDue companyId => exact results (IntegrationsOauthService.refreshDueLoop_twins _ _)
  | ensureFresh companyId id => exact results (IntegrationsOauthService.ensureFresh_twins id)
  | refreshOauthCredentials job companyId => exact results (RefreshJob.refreshLoop_twins _ _ _)
  | refreshForCompanies job companies => exact RefreshJob.refreshForCompanies_twins companies

def replaced (f : String → String) (lib : Crates) (svc : IntegrationsOauthService) :
    Renamed (tokenMap f) (system lib svc) (system lib svc) where
  onWorld := Hub.rename f
  onEnv := Env.rename f
  results _ := Eq
  prog := prog_twin lib svc
  next := Hub.next_rename
  leave _ _ := rfl
  env := by
    intro e w w' h
    rcases e with clock | token
    · simp only [system, Hub.env, Option.ite_none_right_eq_some, Option.some.injEq] at h
      obtain ⟨hc, rfl⟩ := h
      exact if_pos hc
    · cases h
      rfl

/-- Statements and calls fail as they like, and the store answers as its port documents. -/
def KeepsPort {lib : Crates} {svc : IntegrationsOauthService} (cfg : Config (system lib svc)) :
    Label (system lib svc) → Prop
  | .op _ op ans => Hub.StorePort cfg.world op ans
  | .start .. | .finish _ | .crash _ | .env _ => True

instance {lib : Crates} {svc : IntegrationsOauthService} (cfg : Config (system lib svc)) :
    (l : Label (system lib svc)) → Decidable (KeepsPort cfg l)
  | .op _ op ans => inferInstanceAs (Decidable (Hub.StorePort cfg.world op ans = true))
  | .start .. | .finish _ | .crash _ | .env _ => .isTrue trivial

/-- The step with replaced tokens. -/
abbrev Label.rename {lib : Crates} {svc : IntegrationsOauthService} (f : String → String) :
    Label (system lib svc) → Label (system lib svc) := (replaced f lib svc).onLabel

/-- **Tokens are immaterial.** However the calls interleave and whatever fails, the same schedule with other
tokens is a run as well. It asks the same statements, it leaves the same rows and the same open
transactions, and its calls return the same. -/
theorem tokens_immaterial {lib : Crates} {svc : IntegrationsOauthService} {cfg : Config (system lib svc)}
    (f : String → String) {w₀ : Hub} (hr : Reach (system lib svc) (· = w₀) KeepsPort cfg) :
    ∃ cfg' : Config (system lib svc), Reach (system lib svc) (· = w₀.rename f) KeepsPort cfg' ∧
      cfg'.hist = cfg.hist.map (Label.rename f) ∧ cfg'.world = Hub.rename f cfg.world ∧
      ∀ t c r, cfg.threads t = .done c r → cfg'.threads t = .done c r := by
  have hkeeps : ∀ {cfg cfg' : Config (system lib svc)} {l : Label (system lib svc)},
      (replaced f lib svc).Configs cfg cfg' → KeepsPort cfg l →
        KeepsPort cfg' ((replaced f lib svc).onLabel l) := by
    intro cfg cfg' l hc hl
    rcases l with _ | ⟨t, op, ans⟩ | _ | _ | _
    case op =>
      change Hub.StorePort cfg'.world (op.rename f) (renameAns f op ans)
      rw [hc.world]
      exact Hub.storePort_rename hl
    all_goals trivial
  obtain ⟨cfg', hr', hc⟩ : ∃ cfg', Reach (system lib svc) (· = w₀.rename f) KeepsPort cfg' ∧
      (replaced f lib svc).Configs cfg cfg' := by
    refine (replaced f lib svc).reach ?_ hkeeps hr
    rintro w rfl
    rfl
  refine ⟨cfg', hr', hc.hist, hc.world, ?_⟩
  intro t c r ht
  have hth := hc.threads t
  rw [ht] at hth
  generalize cfg'.threads t = th' at hth
  rcases hth with _ | _ | rfl
  rfl

/-! ## The renewal without tokens -/

theorem mailRenewal_keeps_port : (replay KeepsPort (.init mailHub) mailRenewal).any
    mailRenewalEnd = true := by
  decide +kernel

theorem tokens_immaterial_mailbox : ∃ cfg' : Config (system mailCrates mailService),
    Reach (system mailCrates mailService) (· = mailHub) KeepsPort cfg' ∧
      cfg'.hist = (mailRenewal.map (Label.rename fun _ => "")).reverse ∧
      Hub.status? cfg'.world 1 = some .active := by
  obtain ⟨cfg, hr, hh, hend⟩ : ∃ cfg, Reach (system mailCrates mailService) (· = mailHub)
      KeepsPort cfg ∧ cfg.hist = mailRenewal.reverse ∧ mailRenewalEnd cfg = true := by
    refine Reach.exists_of_replay ?_ mailRenewal_keeps_port
    rfl
  obtain ⟨cfg', hr', hh', hw, -⟩ := tokens_immaterial (fun _ => "") hr
  simp only [mailRenewalEnd, Bool.and_eq_true, beq_iff_eq] at hend
  refine ⟨cfg', hr', ?_, ?_⟩
  · rw [hh', hh, List.map_reverse]
  · rw [hw, Hub.status?, Hub.rename_accounts, hend.2]
    rfl

end BackboneIntegrations.OAuth
