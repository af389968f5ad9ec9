import BackboneIntegrations.Interleave.Solo
import BackboneIntegrations.OAuth.Gauntlet

/-!
# The two refreshers

`refresh_claimed` of the service and `refresh_one` of the job on the same claimed account, with
the same answers of the store and the provider.
-/

open Interleave

namespace BackboneIntegrations.OAuth

/-! ## One refresh with fixed answers -/

/-- What the store and the provider answer to one refresh. -/
structure Answers where
  read : Except OAuthCredentialFailure TokenBundle
  exchange : Except TransportFailure TokenResponse
  rotate : Except OAuthCredentialFailure Uuid

namespace Answers

variable (a : Answers)

/-- The answer to one operation. No statement fails. -/
def pick (w : Hub) : (op : Op) → Option (Ans op)
  | .utcNow => some w.clock
  | .readToken _ => some a.read
  | .exchange .. => some a.exchange
  | .rotate .. => some a.rotate
  | .updateTx id u => some (.ok (if (w.claimedTarget id u).isSome then 1 else 0))
  | .commit | .rollback => some (.ok ())
  | _ => none

def answer (t : Tid) (op : Op) (w : Hub) : Option (Ans op × Hub) :=
  (a.pick w op).bind fun ans => (Hub.next t op ans w).map fun w' => (ans, w')

end Answers

/-- Thread `t` has claimed the active account, and has written nothing yet. -/
structure Claimed (w : Hub) (t : Tid) (d : DueAccount) : Prop where
  row : ∃ r, w.accounts.lookup d.id = some r ∧ r.status = .active ∧ d = r.toDue d.id
  held : w.txs.holder d.id = some t
  clean : w.txs.writes t = []

/-- The world that a refresh leaves, with its transaction over. -/
def leftBy {ε α : Type} (a : Answers) (t : Tid) (p : Flow ε α) (w : Hub) : Hub :=
  (p.run.play (a.answer t) w).release t

/-! ## What a refresh decides -/

inductive Decision where
  | leave | expire | replace
  deriving DecidableEq, Repr

/-- What a decision does to the account and to the store. -/
structure Decided (w w' : Hub) (id : Uuid) (v : Decision) : Prop where
  status : w'.status? id = some (if v = .expire then .expired else .active)
  credentials : w'.credentials = w.credentials ↔ v ≠ .replace

/-- The expiry that a response gives, if it gives one that can be stored. -/
def TokenResponse.storable (r : TokenResponse) (now : Time) : Option Time :=
  r.lifetime.bind (addSeconds now)

/-- From the exchange on. The refreshers differ in what they do when the store refuses. -/
def Answers.settle (a : Answers) (now : Time) (refused : OAuthCredentialFailure → Decision) :
    Decision :=
  match a.exchange with
  | .error f => if f.isInvalidGrant then .expire else .leave
  | .ok r =>
    match r.storable now with
    | none => .leave
    | some _ =>
      match a.rotate with
      | .ok _ => .replace
      | .error f => refused f

/-- The job gives an account up, unless it could not reach the store. -/
def jobRefused (f : OAuthCredentialFailure) : Decision :=
  if f.isTransport then .leave else .expire

def serviceDecision (client : Option OAuthClientConfig) (window : Int) (now : Time) (a : Answers) :
    Decision :=
  match a.read with
  | .error f => if IntegrationsOauthService.isDead f then .expire else .leave
  | .ok b =>
    match addSeconds b.expiresAt (-window) with
    | none => .leave
    | some _ =>
      match b.refreshToken with
      | none => .expire
      | some _ =>
        match (client.map (·.clientId)).filter (! Text.isBlank ·) with
        | none => .leave
        | some _ => a.settle now fun _ => .leave

def jobDecision (client : Option OAuthClientConfig) (now : Time) (a : Answers) : Decision :=
  match client with
  | none => .leave
  | some _ =>
    match a.read with
    | .error f => jobRefused f
    | .ok b =>
      match b.refreshToken with
      | none => .expire
      | some _ => a.settle now jobRefused

/-! ## The exits -/

section

variable {a : Answers} {w w₀ : Hub} {t : Tid} {d : DueAccount}

theorem Claimed.leave (h : Claimed w t d) (hw : w.credentials = w₀.credentials) :
    Decided w₀ (w.release t) d.id .leave := by
  obtain ⟨r, hr, hs, -⟩ := h.row
  constructor
  · exact Hub.status?_eq_some.mpr ⟨r, hr, hs⟩
  · simpa [Hub.release] using hw

theorem Claimed.answer_updateTx (h : Claimed w t d) {u : ClaimedUpdate} (hu : u.guard .active) :
    a.answer t (.updateTx d.id u) w =
      some (.ok 1, (w.lock t d.id).queue t (.update d.id u (w.began t))) := by
  obtain ⟨r, hr, hs, -⟩ := h.row
  have ht : w.claimedTarget d.id u = some r := by
    rw [Hub.claimedTarget, hr]
    simp [hs, hu]
  simp [Answers.answer, Answers.pick, Hub.next, ht, Txs.FreeFor, h.held]

theorem Claimed.commit_lookup (h : Claimed w t d) (u : ClaimedUpdate) (now : Time) :
    (((w.lock t d.id).queue t (.update d.id u now)).commit t).accounts.lookup d.id =
      (w.accounts.lookup d.id).map (u.set now) := by
  have hwrites : ((w.lock t d.id).queue t (.update d.id u now)).txs.writes t =
      [.update d.id u now] := by
    simp [Hub.lock, Hub.queue, h.clean]
  rw [Hub.commit_accounts, hwrites, List.foldl_cons, List.foldl_nil, Hub.apply_lookup]
  simp [Hub.lock, Hub.queue, Write.id]

theorem Claimed.rotated (h : Claimed w t d) (scope : CredentialScope) (purpose : String)
    (b : TokenBundle) (e : Time) : Claimed ((w.withdraw scope).store scope purpose b e) t d :=
  ⟨h.row, h.held, h.clean⟩

theorem rotated_credentials (w : Hub) (scope : CredentialScope) (purpose : String) (b : TokenBundle)
    (e : Time) : ((w.withdraw scope).store scope purpose b e).credentials ≠ w.credentials := by
  intro he
  have hlen := congrArg List.length he
  simp [Hub.store, Hub.withdraw] at hlen

theorem Claimed.decided (h : Claimed w t d) (u : ClaimedUpdate) {v : Decision}
    (hv : u.Expires ↔ v = .expire) (hw : w.credentials = w₀.credentials ↔ v ≠ .replace) :
    Decided w₀ ((((w.lock t d.id).queue t (.update d.id u (w.began t))).commit t).release t)
      d.id v := by
  obtain ⟨r, hr, hs, -⟩ := h.row
  constructor
  · refine Hub.status?_eq_some.mpr ⟨u.set (w.began t) r, ?_, ?_⟩
    · rw [Hub.release, h.commit_lookup, hr, Option.map_some]
    · simp [ClaimedUpdate.set_status, hs, hv]
  · simpa [Hub.release, Hub.queue, Hub.lock] using hw

/-! ## The service -/

variable {lib : Crates} {svc : IntegrationsOauthService} {companyId : Uuid}
  {job : RefreshJob}

/-- The contract of one refresh: whatever it returns, and also if it panics, it has decided `v`. -/
def Decides {ε α : Type} (a : Answers) (t : Tid) (p : Flow ε α) (w w₀ : Hub) (id : Uuid)
    (v : Decision) : Prop :=
  Meets (.fixed (a.answer t) fun w' => Decided w₀ (w'.release t) id v) p.run w
    fun _ w' => Decided w₀ (w'.release t) id v

section

variable {α : Type} {stuck : Hub → Prop} {Q : α → Hub → Prop}

theorem Answers.meets {op : Op} {ans : Ans op} {w' : Hub} {k : Ans op → Prog Sig α}
    (ha : a.answer t op w = some (ans, w')) :
    Meets (.fixed (a.answer t) stuck) (.call (S := Sig) op k) w Q ↔
      Meets (.fixed (a.answer t) stuck) (k ans) w' Q := meets_fixed ha

theorem Answers.meets_commit {k : Except DbError Unit → Prog Sig α} :
    Meets (.fixed (a.answer t) stuck) (.call (S := Sig) .commit k) w Q ↔
      Meets (.fixed (a.answer t) stuck) (k (.ok ())) (w.commit t) Q := meets rfl

theorem Answers.meets_rollback {k : Except DbError Unit → Prog Sig α} :
    Meets (.fixed (a.answer t) stuck) (.call (S := Sig) .rollback k) w Q ↔
      Meets (.fixed (a.answer t) stuck) (k (.ok ())) (w.release t) Q := meets rfl

theorem Answers.meets_utcNow {k : Time → Prog Sig α} :
    Meets (.fixed (a.answer t) stuck) (.call (S := Sig) .utcNow k) w Q ↔
      Meets (.fixed (a.answer t) stuck) (k w.clock) w Q :=
  meets (by simp [answer, pick, Hub.next])

theorem Answers.meets_readToken {scope : CredentialScope}
    {k : Except OAuthCredentialFailure TokenBundle → Prog Sig α} :
    Meets (.fixed (a.answer t) stuck) (.call (S := Sig) (.readToken scope) k) w Q ↔
      Meets (.fixed (a.answer t) stuck) (k a.read) w Q := meets rfl

theorem Answers.meets_exchange {endpoint : ValidatedEndpoint} {form : TokenRequestForm}
    {k : Except TransportFailure TokenResponse → Prog Sig α} :
    Meets (.fixed (a.answer t) stuck) (.call (S := Sig) (.exchange endpoint form) k) w Q ↔
      Meets (.fixed (a.answer t) stuck) (k a.exchange) w Q := meets rfl

theorem Answers.meets_refused {scope : CredentialScope} {b : TokenBundle} {e : Time}
    {k : Except OAuthCredentialFailure Uuid → Prog Sig α} {f : OAuthCredentialFailure}
    (hf : a.rotate = .error f) :
    Meets (.fixed (a.answer t) stuck) (.call (S := Sig) (.rotate scope b e) k) w Q ↔
      Meets (.fixed (a.answer t) stuck) (k (.error f)) w Q :=
  meets (by simp [answer, pick, hf, Hub.next])

theorem Answers.meets_rotated {scope : CredentialScope} {b : TokenBundle} {e : Time}
    {k : Except OAuthCredentialFailure Uuid → Prog Sig α} {cid : Uuid} (hr : a.rotate = .ok cid) :
    Meets (.fixed (a.answer t) stuck) (.call (S := Sig) (.rotate scope b e) k) w Q ↔
      Meets (.fixed (a.answer t) stuck) (k (.ok cid))
        ((w.withdraw scope).store scope purposeOauthToken b e) Q :=
  meets (by simp [answer, pick, hr, Hub.next])

end

namespace IntegrationsOauthService

theorem expireClaimed_decides (h : Claimed w t d) (hw : w.credentials = w₀.credentials)
    (summary : RefreshSummary) : Decides a t (expireClaimed d.id summary) w w₀ d.id .expire := by
  simp only [Decides, expireClaimed, updateTx, commit, sql, ask, Prog.ask, meets_run_bind,
    meets_run_orFail]
  rw [Answers.meets (h.answer_updateTx rfl)]
  simp only [meets_ret, Except.mapError]
  rw [Answers.meets_commit]
  exact h.decided _ (by simp [ClaimedUpdate.Expires]) (by simp [hw])

theorem leaveDue_decides (h : Claimed w t d) (hw : w.credentials = w₀.credentials)
    (summary : RefreshSummary) : Decides a t (leaveDue summary) w w₀ d.id .leave := by
  simp only [Decides, leaveDue, rollback, sql, ask, Prog.ask, meets_run_bind, meets_run_orFail]
  rw [Answers.meets_rollback]
  exact ⟨(h.leave hw).status, (h.leave hw).credentials⟩

theorem rotateClaimed_decides (h : Claimed w t d) (prior : TokenBundle) {response : TokenResponse}
    (hex : a.exchange = .ok response) (summary : RefreshSummary) :
    Decides a t (rotateClaimed companyId d prior response summary) w w d.id
      (a.settle w.clock fun _ => .leave) := by
  simp only [Decides, rotateClaimed, utcNow, ask, Prog.ask, meets_run_bind, meets_run_answer]
  rw [Answers.meets_utcNow, meets_ret]
  refine meets_lifetime (fun secs hs ht _ => ?_) (fun hs => ?_) fun secs e hs ht => ?_
  · simp only [Answers.settle, hex, TokenResponse.storable, hs, Option.bind_some, ht]
    exact h.leave rfl
  · simp only [Answers.settle, hex, TokenResponse.storable, hs, Option.bind_none]
    exact leaveDue_decides h rfl summary
  simp only [Answers.settle, hex, TokenResponse.storable, hs, Option.bind_some, ht,
    meets_run_bind, meets_run_orFail, updateTx, commit, sql, ask, Prog.ask]
  cases hr : a.rotate with
  | error f =>
    rw [Answers.meets_refused hr]
    exact h.leave rfl
  | ok cid =>
    have h' := h.rotated (d.scope companyId) purposeOauthToken
      ⟨response.accessToken, response.refreshToken.or prior.refreshToken, e,
        response.scope.or prior.scope⟩ e
    rw [Answers.meets_rotated hr]
    simp only [meets_ret, Except.mapError]
    rw [Answers.meets (h'.answer_updateTx rfl)]
    simp only [meets_ret]
    rw [Answers.meets_commit]
    refine h'.decided _ (by simp [ClaimedUpdate.Expires]) ?_
    exact iff_of_false (rotated_credentials _ _ _ _ _) (by simp)

theorem refreshPrior_decides (h : Claimed w t d) {endpoints : ValidatedEndpoints}
    (hend : svc.endpoints.lookup d.provider = some endpoints) {prior : TokenBundle}
    (hread : a.read = .ok prior) {freshUntil : Time}
    (hfresh : addSeconds prior.expiresAt (-svc.refreshWindow) = some freshUntil)
    (summary : RefreshSummary) :
    Decides a t (svc.refreshPrior lib companyId d prior summary) w w d.id
      (serviceDecision (svc.clients.get d.provider) svc.refreshWindow w.clock a) := by
  simp only [serviceDecision, hread, hfresh, refreshPrior, endpointsFor, hend]
  cases htok : prior.refreshToken with
  | none => exact expireClaimed_decides h rfl summary
  | some refreshToken =>
    cases hc : ((svc.clients.get d.provider).map (·.clientId)).filter (! Text.isBlank ·) with
    | none => exact leaveDue_decides h rfl summary
    | some clientId =>
      simp only [Decides, pure, Except.pure, ask, Prog.ask, meets_run_bind, meets_run_answer]
      rw [Answers.meets_exchange, meets_ret]
      cases hex : a.exchange with
      | ok response => exact rotateClaimed_decides h prior hex summary
      | error f =>
        simp only [Answers.settle, hex, meets_run_ite]
        cases hg : f.isInvalidGrant with
        | true => exact ⟨fun _ => expireClaimed_decides h rfl summary, nofun⟩
        | false => exact ⟨nofun, fun _ => leaveDue_decides h rfl summary⟩

/-- `refresh_claimed` decides what `serviceDecision` says. -/
theorem refreshClaimed_decides (h : Claimed w t d) {endpoints : ValidatedEndpoints}
    (hend : svc.endpoints.lookup d.provider = some endpoints)
    (hin : ∀ b, a.read = .ok b → b.expiresAt < w.clock + svc.refreshWindow * microsPerSecond)
    (summary : RefreshSummary) :
    Decides a t (svc.refreshClaimed lib companyId d summary) w w d.id
      (serviceDecision (svc.clients.get d.provider) svc.refreshWindow w.clock a) := by
  simp only [Decides, refreshClaimed, ask, Prog.ask, meets_run_bind, meets_run_answer]
  rw [Answers.meets_readToken, meets_ret]
  cases hread : a.read with
  | error f =>
    simp only [serviceDecision, hread, meets_run_ite]
    cases hd : isDead f with
    | true => exact ⟨fun _ => expireClaimed_decides h rfl summary, fun hno => absurd rfl hno⟩
    | false => exact ⟨by rintro ⟨⟩, fun _ => leaveDue_decides h rfl summary⟩
  | ok prior =>
    simp only [meets_run_bind]
    refine meets_orPanic (fun hnone _ => ?_) fun freshUntil hfresh => ?_
    · simp only [serviceDecision, hread, hnone]
      exact h.leave rfl
    have hlate : ¬ w.clock ≤ freshUntil := by
      rw [addSeconds_eq hfresh, Int.neg_mul, ← Int.sub_eq_add_neg]
      exact Int.not_le.mpr (Int.sub_right_lt_of_lt_add (hin prior hread))
    simp only [utcNow, ask, Prog.ask, meets_run_answer]
    rw [Answers.meets_utcNow, meets_ret, if_neg hlate]
    exact refreshPrior_decides h hend hread hfresh summary

end IntegrationsOauthService

/-! ## The job -/

namespace RefreshJob

theorem expire_decides (h : Claimed w t d) (report : RefreshReport) :
    Decides a t (expire d.id report) w w d.id .expire := by
  simp only [Decides, expire, expireAccount, sql, ask, Prog.ask, meets_run_bind, meets_run_orFail]
  rw [Answers.meets (h.answer_updateTx rfl)]
  simp only [meets_ret, Except.mapError]
  rw [Answers.meets_commit]
  exact h.decided _ (by simp [ClaimedUpdate.Expires]) (by simp)

theorem skip_decides (h : Claimed w t d) (report : RefreshReport) :
    Decides a t (skip report) w w d.id .leave := by
  simp only [Decides, skip, sql, ask, Prog.ask, meets_run_bind, meets_run_orFail]
  rw [Answers.meets_rollback]
  exact ⟨(h.leave rfl).status, (h.leave rfl).credentials⟩

theorem refused_decides (h : Claimed w t d) (f : OAuthCredentialFailure) (report : RefreshReport) :
    Decides a t (if f.isTransport then skip report else expire d.id report) w w d.id
      (jobRefused f) := by
  unfold jobRefused
  split
  · exact skip_decides h report
  · exact expire_decides h report

theorem rotateOne_decides (h : Claimed w t d) (bundle : TokenBundle) {response : TokenResponse}
    (hex : a.exchange = .ok response) (report : RefreshReport) :
    Decides a t (rotateOne companyId d bundle w.clock response report) w w d.id
      (a.settle w.clock jobRefused) := by
  simp only [Decides, rotateOne, meets_run_bind]
  refine meets_lifetime (fun secs hs ht _ => ?_) (fun hs => ?_) fun secs e hs ht => ?_
  · simp only [Answers.settle, hex, TokenResponse.storable, hs, Option.bind_some, ht]
    exact h.leave rfl
  · simp only [Answers.settle, hex, TokenResponse.storable, hs, Option.bind_none]
    exact skip_decides h report
  simp only [Answers.settle, hex, TokenResponse.storable, hs, Option.bind_some, ht,
    meets_run_bind, meets_run_answer, ask, Prog.ask]
  cases hr : a.rotate with
  | error f =>
    rw [Answers.meets_refused hr]
    exact refused_decides h f report
  | ok cid =>
    have h' := h.rotated (d.scope companyId) purposeOauthToken (successor bundle response e) e
    rw [Answers.meets_rotated hr]
    simp only [meets_ret, mirror, sql, ask, Prog.ask, meets_run_bind, meets_run_orFail]
    rw [Answers.meets (h'.answer_updateTx rfl)]
    simp only [meets_ret, Except.mapError, meets_run_ite, meets_run_bind, meets_run_orFail]
    refine ⟨fun hne => absurd rfl hne, fun _ => ?_⟩
    rw [Answers.meets_commit]
    refine h'.decided _ (by simp [ClaimedUpdate.Expires]) ?_
    exact iff_of_false (rotated_credentials _ _ _ _ _) (by simp)

theorem refreshOne_decides (h : Claimed w t d) {endpoints : ValidatedEndpoints}
    (hend : ValidatedEndpoints.resolve lib.toUrlCrate job.registry d.provider job.overrides =
      .ok endpoints) (report : RefreshReport) :
    Decides a t (job.refreshOne lib companyId d report) w w d.id
      (jobDecision (job.clients.get d.provider) w.clock a) := by
  simp only [jobDecision, refreshOne, hend]
  cases job.clients.get d.provider with
  | none => exact skip_decides h report
  | some client =>
    simp only [Decides, refreshBundle, ask, Prog.ask, meets_run_bind, meets_run_answer]
    rw [Answers.meets_readToken, meets_ret]
    cases hread : a.read with
    | error f => exact refused_decides h f report
    | ok bundle =>
      cases htok : bundle.refreshToken with
      | none =>
        simp only [htok]
        exact expire_decides h report
      | some refreshToken =>
        simp only [htok, utcNow, ask, Prog.ask, meets_run_bind, meets_run_answer]
        rw [Answers.meets_utcNow, meets_ret, Answers.meets_exchange, meets_ret]
        cases hex : a.exchange with
        | ok response => exact rotateOne_decides h bundle hex report
        | error f =>
          simp only [Answers.settle, hex, meets_run_ite]
          cases hg : f.isInvalidGrant with
          | true => exact ⟨fun _ => expire_decides h report, fun hno => absurd rfl hno⟩
          | false => exact ⟨by rintro ⟨⟩, fun _ => skip_decides h report⟩

end RefreshJob

/-! ## Where they agree -/

namespace Answers

/-- The provider gave a token that can be stored. -/
def Granted (a : Answers) (now : Time) : Prop :=
  ∃ r, a.exchange = .ok r ∧ (r.storable now).isSome

/-- The store refused the rotate, and not because it could not be reached. -/
def Refused (a : Answers) : Prop := ∃ f, a.rotate = .error f ∧ ¬ f.isTransport

/-- The provider did not reject the refresh token, and no successor was stored or refused. -/
def Retryable (a : Answers) (now : Time) : Prop :=
  (∀ f, a.exchange = .error f → ¬ f.isInvalidGrant) ∧
    (a.Granted now → ∃ f, a.rotate = .error f ∧ f.isTransport)

theorem leave_eq_settle (now : Time) : .leave = a.settle now jobRefused ↔ a.Retryable now := by
  unfold settle Retryable Granted
  cases hex : a.exchange with
  | error f => cases hg : f.isInvalidGrant <;> simp
  | ok r =>
    cases hs : r.storable now with
    | none => simp [hs]
    | some e =>
      cases hr : a.rotate with
      | ok cid => simp [hs]
      | error f => cases ht : f.isTransport <;> simp [hs, ht, jobRefused]

theorem settle_eq_settle (now : Time) : (a.settle now fun _ => .leave) = a.settle now jobRefused ↔
    (a.Granted now → ¬ a.Refused) := by
  unfold settle Granted Refused
  cases hex : a.exchange with
  | error f => simp
  | ok r =>
    cases hs : r.storable now with
    | none => simp [hs]
    | some e =>
      cases hr : a.rotate with
      | ok cid => simp [hs]
      | error f => cases ht : f.isTransport <;> simp [hs, ht, jobRefused]

end Answers

/-- The inputs on which the two refreshers decide the same. -/
def Agreeable (client : Option OAuthClientConfig) (window : Int) (now : Time) (a : Answers) : Prop :=
  match a.read, client with
  | .error f, none => ¬ IntegrationsOauthService.isDead f
  | .error f, some _ => IntegrationsOauthService.isDead f ∨ f.isTransport
  | .ok b, none => b.refreshToken ≠ none ∨ addSeconds b.expiresAt (-window) = none
  | .ok b, some c =>
    if b.refreshToken = none then addSeconds b.expiresAt (-window) ≠ none
    else if Text.isBlank c.clientId ∨ addSeconds b.expiresAt (-window) = none then a.Retryable now
    else a.Granted now → ¬ a.Refused

theorem isDead_not_transport {f : OAuthCredentialFailure} (h : IntegrationsOauthService.isDead f) :
    ¬ f.isTransport := by
  intro ht
  simp only [OAuthCredentialFailure.isTransport, beq_iff_eq] at ht
  rw [IntegrationsOauthService.isDead, ht] at h
  revert h
  decide

theorem leave_eq_refused {f : OAuthCredentialFailure} : .leave = jobRefused f ↔ f.isTransport := by
  unfold jobRefused
  split <;> simp_all

theorem expire_eq_refused {f : OAuthCredentialFailure} : .expire = jobRefused f ↔ ¬ f.isTransport := by
  unfold jobRefused
  split <;> simp_all

theorem decision_eq_iff (client : Option OAuthClientConfig) (window : Int) (now : Time) :
    serviceDecision client window now a = jobDecision client now a ↔
      Agreeable client window now a := by
  simp only [serviceDecision, jobDecision, Agreeable]
  cases a.read with
  | error f =>
    cases client with
    | none => simp
    | some c =>
      cases hd : IntegrationsOauthService.isDead f with
      | true => simp [hd, expire_eq_refused, isDead_not_transport hd]
      | false => simp [hd, leave_eq_refused]
  | ok b =>
    cases hf : addSeconds b.expiresAt (-window) with
    | none => cases client <;> cases htok : b.refreshToken <;> simp [hf, htok, Answers.leave_eq_settle]
    | some e =>
      cases client with
      | none => cases htok : b.refreshToken <;> simp [hf, htok]
      | some c =>
        cases htok : b.refreshToken with
        | none => simp [hf, htok]
        | some r =>
          cases hb : Text.isBlank c.clientId with
          | true => simp [hf, htok, hb, Option.filter, Answers.leave_eq_settle]
          | false => simp [hf, htok, hb, Option.filter, Answers.settle_eq_settle]

theorem decided_agree {w₁ w₂ : Hub} {id : Uuid} {v v' : Decision} (h : Decided w₀ w₁ id v)
    (h' : Decided w₀ w₂ id v') :
    (w₁.status? id = w₂.status? id ∧
      (w₁.credentials = w₀.credentials ↔ w₂.credentials = w₀.credentials)) ↔ v = v' := by
  rw [h.status, h'.status, h.credentials, h'.credentials]
  cases v <;> cases v' <;> simp

/-- **The two refreshers agree** exactly on the `Agreeable` inputs. A failure of the store other
than a transport failure, a client with a blank id and a client that is missing tell them apart. -/
theorem refreshers_agree_iff (h : Claimed w t d) {endpoints : ValidatedEndpoints}
    (hend : svc.endpoints.lookup d.provider = some endpoints)
    (hres : ValidatedEndpoints.resolve lib.toUrlCrate job.registry d.provider job.overrides =
      .ok endpoints)
    (hclient : job.clients.get d.provider = svc.clients.get d.provider)
    (hin : ∀ b, a.read = .ok b → b.expiresAt < w.clock + svc.refreshWindow * microsPerSecond)
    (summary : IntegrationsOauthService.RefreshSummary) (report : RefreshReport) :
    ((leftBy a t (svc.refreshClaimed lib companyId d summary) w).status? d.id =
        (leftBy a t (job.refreshOne lib companyId d report) w).status? d.id ∧
      ((leftBy a t (svc.refreshClaimed lib companyId d summary) w).credentials = w.credentials ↔
        (leftBy a t (job.refreshOne lib companyId d report) w).credentials = w.credentials)) ↔
      Agreeable (svc.clients.get d.provider) svc.refreshWindow w.clock a := by
  have hs : Decided w (leftBy a t (svc.refreshClaimed lib companyId d summary) w) d.id _ :=
    (IntegrationsOauthService.refreshClaimed_decides h hend hin summary).play
  have hj : Decided w (leftBy a t (job.refreshOne lib companyId d report) w) d.id _ :=
    (RefreshJob.refreshOne_decides h hres report).play
  rw [hclient] at hj
  rw [decided_agree hs hj, decision_eq_iff]

end

/-! A store that refuses the rotate of a due account. -/

def dueAccount : DueAccount := ⟨1, "gmail", "user@example.com"⟩

def mailRefreshForm : TokenRequestForm :=
  ⟨"refresh_token", none, "refresh-1", none, none, "client-1", none, none⟩

/-- Five minutes before the expiry, with the row locked by thread 0. -/
def dueHub : Hub :=
  { mailHub with
    accounts := AList.singleton 1
      ⟨"gmail", "user@example.com", .active, "", none, some 3600000000, none⟩
    txs := Txs.empty.lock 0 1
    clock := 3300000000 }

def mailJob : RefreshJob := ⟨.withBuiltin, ∅, mailService.clients, {}⟩

def refusedRotate : Answers :=
  ⟨.ok mailBundle, .ok mailResponse, .error ⟨OAuthCredentialFailure.codeNotActive, ""⟩⟩

theorem dueHub_claimed : Claimed dueHub 0 dueAccount where
  row := ⟨_, rfl, rfl, rfl⟩
  held := rfl
  clean := rfl

theorem refused_rotate_differs :
    mailBundle.expiresAt < dueHub.clock + mailService.refreshWindow * microsPerSecond ∧
    (leftBy refusedRotate 0 (mailService.refreshClaimed mailCrates 9 dueAccount {}) dueHub).status? 1 =
      some .active ∧
    (leftBy refusedRotate 0 (mailJob.refreshOne mailCrates 9 dueAccount {}) dueHub).status? 1 =
      some .expired := by
  decide +kernel

theorem refreshers_agree_iff_refused :
    ((leftBy refusedRotate 0 (mailService.refreshClaimed mailCrates 9 dueAccount {}) dueHub).status? 1 =
        (leftBy refusedRotate 0 (mailJob.refreshOne mailCrates 9 dueAccount {}) dueHub).status? 1 ∧
      ((leftBy refusedRotate 0 (mailService.refreshClaimed mailCrates 9 dueAccount {}) dueHub).credentials = [] ↔
        (leftBy refusedRotate 0 (mailJob.refreshOne mailCrates 9 dueAccount {}) dueHub).credentials =
          [])) ↔
      Agreeable (mailService.clients.get "gmail") 600 3300000000 refusedRotate :=
  refreshers_agree_iff dueHub_claimed rfl gmail_resolved rfl (by rintro b ⟨⟩; decide) {} {}

end BackboneIntegrations.OAuth
