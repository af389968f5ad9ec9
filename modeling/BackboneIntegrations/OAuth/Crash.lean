import BackboneIntegrations.OAuth.Agree
import BackboneIntegrations.OAuth.Turns

/-!
# A refresh that crashes

`refresh_claimed` and `refresh_one` can crash at each operation before their commit. What the crash
leaves can be refreshed again, by either of them.
-/

open Interleave

namespace BackboneIntegrations.OAuth

open IntegrationsOauthService RefreshJob

/-! ## The two refreshers -/

inductive Refresher where
  | service (svc : IntegrationsOauthService) (summary : RefreshSummary)
  | job (job : RefreshJob) (report : RefreshReport)

namespace Refresher

/-- The refresh of one claimed account. -/
def prog (lib : Crates) (co : Uuid) (d : DueAccount) : Refresher → Prog Sig Unit
  | service svc summary => do
    let _ ← (svc.refreshClaimed lib co d summary).run
  | job j report => do
    let _ ← (j.refreshOne lib co d report).run

/-- The provider has its endpoints and its client. -/
def Configured (lib : Crates) (provider : String) : Refresher → Prop
  | service svc _ => ∃ ec, svc.endpointsFor lib provider = .ok ec
  | job j _ =>
    (∃ endpoints, ValidatedEndpoints.resolve lib.toUrlCrate j.registry provider j.overrides =
      .ok endpoints) ∧ ∃ client, j.clients.get provider = some client

end Refresher

/-! ## What a refresh needs -/

/-- The store has one current credential for the scope, and the provider takes its refresh token. -/
structure Renewable (issued : String → Prop) (scope : CredentialScope) (cs : Credentials)
    (c : Credential) : Prop where
  only : cs.filter (·.IsCurrent scope) = [c]
  token : ∃ token, c.bundle.refreshToken = some token ∧ issued token
  honest : c.bundle.expiresAt = c.expiresAt

theorem Credentials.current_of_only {cs : Credentials} {scope : CredentialScope} {c : Credential}
    (h : cs.filter (·.IsCurrent scope) = [c]) : cs.current scope = some c := by
  rw [current, ← List.head?_filter, h]
  rfl

variable {issued : String → Prop} {scope : CredentialScope} {cs : Credentials} {c : Credential}

theorem Renewable.current (h : Renewable issued scope cs c) : cs.current scope = some c :=
  Credentials.current_of_only h.only

theorem Renewable.rotated (h : Renewable issued scope cs c) {response : TokenResponse} {e : Time}
    (hissued : ∀ token ∈ response.refreshToken, issued token) :
    Renewable issued scope
      (⟨scope, purposeOauthToken, successor c.bundle response e, e, true⟩ :: cs.withdraw scope)
      ⟨scope, purposeOauthToken, successor c.bundle response e, e, true⟩ where
  only := by
    rw [List.filter_cons, Credentials.filter_withdraw]
    simp [Credential.IsCurrent]
  token := by
    obtain ⟨token, htoken, hold⟩ := h.token
    cases hr : response.refreshToken with
    | none => exact ⟨token, by simp [successor, hr, htoken], hold⟩
    | some new => exact ⟨new, by simp [successor, hr], hissued new hr⟩
  honest := rfl

/-- The provider's tokens are issued. While the two are `up`, the provider takes every issued refresh
token and gives a bundle that lives, and the store rotates what is there and reads what lasts until
the deadline. -/
def upPorts (up : Prop) (issued : String → Prop) (deadline : Time) : Ports where
  exchange form ans := (∀ response, ans = .ok response → ∀ token ∈ response.refreshToken, issued token) ∧
    (up → (∃ token ∈ form.refreshToken, issued token) →
      ∃ response, ans = .ok response ∧ ∃ secs ∈ response.expiresIn, 0 < secs)
  readToken v scope ans := up →
    (∃ c, v.credentials.current scope = some c ∧ deadline ≤ c.expiresAt) → ∃ b, ans = .ok b
  rotate v scope ans := up → (v.credentials.current scope).isSome → ∃ cid, ans = .ok cid

theorem TokenResponse.lifetime_ne_none {response : TokenResponse}
    (h : ∃ secs ∈ response.expiresIn, 0 < secs) : response.lifetime ≠ none := by
  obtain ⟨secs, hsecs, hpos⟩ := h
  simp [TokenResponse.lifetime, Option.mem_def.mp hsecs, hpos]

/-- The row is as it was, and the account can be refreshed. -/
def Survives (issued : String → Prop) (scope : CredentialScope) (T : Accounts) (v : View) (_ : Op) :
    Prop :=
  v.accounts = T ∧ ∃ c, Renewable issued scope v.credentials c

/-- The account is active, with the expiry of its credential. -/
def Converged (id : Uuid) (scope : CredentialScope) (T : Accounts) (cs : Credentials) : Prop :=
  ∃ r c, T.lookup id = some r ∧ r.status = .active ∧ cs.current scope = some c ∧
    r.expiresAt = some c.expiresAt

/-! ## One refresh, at every operation -/

section

variable {lib : Crates} {svc : IntegrationsOauthService} {co id : Uuid} {up : Prop} {deadline : Time}
  {T : Accounts} {r : Account}

theorem Renewable.not_read (hc : Renewable issued scope cs c) (hlast : up → deadline ≤ c.expiresAt)
    {v : View} (hv : v.credentials = cs) {f : OAuthCredentialFailure}
    (h : (upPorts up issued deadline).readToken v scope (.error f)) : ¬ up := by
  intro hup
  obtain ⟨b, hb⟩ := h hup ⟨c, by rw [hv, hc.current], hlast hup⟩
  cases hb

theorem Renewable.not_rotated (hc : Renewable issued scope cs c) {v : View} (hv : v.credentials = cs)
    {f : OAuthCredentialFailure} (h : (upPorts up issued deadline).rotate v scope (.error f)) :
    ¬ up := by
  intro hup
  obtain ⟨cid, hcid⟩ := h hup (by rw [hv, hc.current]; rfl)
  cases hcid

section

variable {Q : Except OauthError RefreshSummary → View → Prop} {summary : RefreshSummary}

theorem expireClaimed_survives (hr : T.lookup id = some r) (ha : r.status = .active)
    (hc : Renewable issued scope cs c) (hQ : ∀ x v', Q x v') :
    Meets (View.contract (upPorts up issued deadline) (Survives issued scope T)) (expireClaimed id summary).run
      ⟨T, cs, []⟩ Q := by
  refine meets_run_bind.mpr (updateTx_alone hr (by rw [ha]; rfl) ⟨rfl, c, hc⟩ fun now => ?_)
  exact meets_run_bind.mpr (commit_alone hr ⟨rfl, c, hc⟩ (hQ _ _))

theorem leaveDue_survives (hc : Renewable issued scope cs c) (hQ : ∀ x v', Q x v') :
    Meets (View.contract (upPorts up issued deadline) (Survives issued scope T)) (leaveDue summary).run
      ⟨T, cs, []⟩ Q := by
  simp only [leaveDue, rollback, sql, ask, Prog.ask, meets_run_bind, meets_run_orFail,
    View.meets_rollback, meets_ret]
  exact ⟨⟨rfl, c, hc⟩, hQ _ _⟩

theorem rotateClaimed_survives (hr : T.lookup id = some r) (ha : r.status = .active)
    (hc : Renewable issued (r.scope co) cs c) {response : TokenResponse}
    (hissued : ∀ token ∈ response.refreshToken, issued token)
    (hlives : up → ∃ secs ∈ response.expiresIn, 0 < secs)
    (hQ : ∀ x v', (up → Converged id (r.scope co) v'.accounts v'.credentials) → Q x v') :
    Meets (View.contract (upPorts up issued deadline) (Survives issued (r.scope co) T))
      (rotateClaimed co (r.toDue id) c.bundle response summary).run ⟨T, cs, []⟩ Q := by
  simp only [rotateClaimed, utcNow, ask, Prog.ask, meets_run_bind, meets_run_answer,
    View.meets_utcNow, meets_ret]
  refine ⟨⟨rfl, c, hc⟩, fun now => ?_⟩
  refine meets_lifetime (fun _ _ _ => ⟨rfl, c, hc⟩) (fun hnone => ?_) fun secs e _ _ => ?_
  · have hdown : ¬ up := fun hup => TokenResponse.lifetime_ne_none (hlives hup) hnone
    exact leaveDue_survives hc fun x v' => hQ x v' fun hup => absurd hup hdown
  simp only [meets_run_bind, meets_run_orFail, View.meets_rotate, meets_ret, Except.mapError]
  refine ⟨⟨rfl, c, hc⟩, ?_, fun cid c' _ _ => ?_⟩
  · exact fun f hf => hQ _ _ fun hup => absurd hup (hc.not_rotated rfl hf)
  have hc' := hc.rotated (e := e) hissued
  refine updateTx_alone hr (by rfl) ⟨rfl, _, hc'⟩ fun now' => ?_
  refine commit_alone hr ⟨rfl, _, hc'⟩ (hQ _ _ fun _ => ?_)
  exact ⟨_, _, AList.lookup_insert _, ha, hc'.current, rfl⟩

theorem refreshPrior_survives (hr : T.lookup id = some r) (ha : r.status = .active)
    (hc : Renewable issued (r.scope co) cs c)
    (hconf : up → ∃ ec, svc.endpointsFor lib r.provider = .ok ec)
    (hQ : ∀ x v', (up → Converged id (r.scope co) v'.accounts v'.credentials) → Q x v') :
    Meets (View.contract (upPorts up issued deadline) (Survives issued (r.scope co) T))
      (svc.refreshPrior lib co (r.toDue id) c.bundle summary).run ⟨T, cs, []⟩ Q := by
  obtain ⟨token, htoken, hold⟩ := hc.token
  simp only [refreshPrior, htoken]
  cases hec : svc.endpointsFor lib (r.toDue id).provider with
  | error e =>
    have hdown : ¬ up := by
      intro hup
      obtain ⟨ec, hok⟩ := hconf hup
      cases hec.symm.trans hok
    exact leaveDue_survives hc fun x v' => hQ x v' fun hup => absurd hup hdown
  | ok ec =>
    simp only [ask, Prog.ask, meets_run_bind, meets_run_answer, View.meets_exchange, meets_ret]
    refine ⟨⟨rfl, c, hc⟩, ?_⟩
    rintro ans ⟨hissued, hok⟩
    have hok : up → ∃ response, ans = .ok response ∧ ∃ secs ∈ response.expiresIn, 0 < secs :=
      fun hup => hok hup ⟨token, rfl, hold⟩
    -- With everything up the provider takes a live token, so an error says that something is down.
    cases ans with
    | error f =>
      have hdown : ¬ up := by
        intro hup
        obtain ⟨response, he, -⟩ := hok hup
        cases he
      have hQ' : ∀ x v', Q x v' := fun x v' => hQ x v' fun hup => absurd hup hdown
      simp only [meets_run_ite]
      exact ⟨fun _ => expireClaimed_survives hr ha hc hQ', fun _ => leaveDue_survives hc hQ'⟩
    | ok response =>
      refine rotateClaimed_survives hr ha hc (hissued response rfl) (fun hup => ?_) hQ
      obtain ⟨response', he, hlives⟩ := hok hup
      cases he
      exact hlives

theorem refreshClaimed_survives (hr : T.lookup id = some r) (ha : r.status = .active)
    (hc : Renewable issued (r.scope co) cs c) (hlast : up → deadline ≤ c.expiresAt)
    (hconf : up → ∃ ec, svc.endpointsFor lib r.provider = .ok ec)
    (hQ : ∀ x v', (up → Converged id (r.scope co) v'.accounts v'.credentials) → Q x v') :
    Meets (View.contract (upPorts up issued deadline) (Survives issued (r.scope co) T))
      (svc.refreshClaimed lib co (r.toDue id) summary).run ⟨T, cs, []⟩ Q := by
  simp only [refreshClaimed, ask, Prog.ask, meets_run_bind, meets_run_answer, View.meets_readToken,
    meets_ret]
  refine ⟨⟨rfl, c, hc⟩, fun f hf => ?_, fun c' hc' _ => ?_⟩
  · have hQ' : ∀ x v', Q x v' := fun x v' => hQ x v' fun hup => absurd hup (hc.not_read hlast rfl hf)
    rw [meets_run_ite]
    exact ⟨fun _ => expireClaimed_survives hr ha hc hQ', fun _ => leaveDue_survives hc hQ'⟩
  obtain rfl : c = c' := Option.some.inj (hc.current.symm.trans hc')
  refine meets_orPanic (fun _ => ⟨rfl, c, hc⟩) fun freshUntil _ => ?_
  simp only [utcNow, ask, Prog.ask, meets_run_bind, meets_run_answer, meets_run_ite,
    View.meets_utcNow, meets_ret]
  refine ⟨⟨rfl, c, hc⟩, fun now => ⟨fun _ => ?_, fun _ => ?_⟩⟩
  · refine updateTx_alone hr (by rfl) ⟨rfl, c, hc⟩ fun now' => ?_
    refine commit_alone hr ⟨rfl, c, hc⟩ (hQ _ _ fun _ => ?_)
    refine ⟨_, c, AList.lookup_insert _, ha, hc.current, ?_⟩
    rw [← hc.honest]
    rfl
  · exact refreshPrior_survives hr ha hc hconf hQ

end

section

variable {Q : Except DbError RefreshReport → View → Prop} {job : RefreshJob} {report : RefreshReport}

theorem expire_survives (hr : T.lookup id = some r) (hc : Renewable issued scope cs c)
    (hQ : ∀ x v', Q x v') :
    Meets (View.contract (upPorts up issued deadline) (Survives issued scope T)) (expire id report).run
      ⟨T, cs, []⟩ Q := by
  refine meets_run_bind.mpr (meets_run_bind.mpr
    (updateTx_alone hr (by rfl) ⟨rfl, c, hc⟩ fun now => ?_))
  exact commit_alone hr ⟨rfl, c, hc⟩ (hQ _ _)

theorem skip_survives (hc : Renewable issued scope cs c) (hQ : ∀ x v', Q x v') :
    Meets (View.contract (upPorts up issued deadline) (Survives issued scope T)) (skip report).run
      ⟨T, cs, []⟩ Q := by
  simp only [skip, RefreshJob.sql, ask, Prog.ask, meets_run_bind, meets_run_orFail,
    View.meets_rollback, meets_ret]
  exact ⟨⟨rfl, c, hc⟩, hQ _ _⟩

theorem rotateOne_survives (hr : T.lookup id = some r) (ha : r.status = .active)
    (hc : Renewable issued (r.scope co) cs c) {response : TokenResponse} {now : Time}
    (hissued : ∀ token ∈ response.refreshToken, issued token)
    (hlives : up → ∃ secs ∈ response.expiresIn, 0 < secs)
    (hQ : ∀ x v', (up → Converged id (r.scope co) v'.accounts v'.credentials) → Q x v') :
    Meets (View.contract (upPorts up issued deadline) (Survives issued (r.scope co) T))
      (rotateOne co (r.toDue id) c.bundle now response report).run ⟨T, cs, []⟩ Q := by
  have hdown : ∀ {x v'}, ¬ up → Q x v' := fun h => hQ _ _ fun hup => absurd hup h
  refine meets_run_bind.mpr ?_
  refine meets_lifetime (fun _ _ _ => ⟨rfl, c, hc⟩) (fun hnone => ?_) fun secs e _ _ => ?_
  · have hdead : ¬ up := fun hup => TokenResponse.lifetime_ne_none (hlives hup) hnone
    exact skip_survives hc fun _ _ => hdown hdead
  simp only [ask, Prog.ask, meets_run_bind, meets_run_answer, View.meets_rotate, meets_ret]
  refine ⟨⟨rfl, c, hc⟩, fun f hf => ?_, fun cid c' _ _ => ?_⟩
  · have hQ' : ∀ x v', Q x v' := fun _ _ => hdown (hc.not_rotated rfl hf)
    simp only [meets_run_ite]
    exact ⟨fun _ => skip_survives hc hQ', fun _ => expire_survives hr hc hQ'⟩
  · have hc' := hc.rotated (e := e) hissued
    refine meets_run_bind.mpr (updateTx_alone hr (by rfl) ⟨rfl, _, hc'⟩ fun now' => ?_)
    refine meets_run_ite.mpr ⟨fun hne => absurd rfl hne, fun _ => ?_⟩
    refine meets_run_bind.mpr (commit_alone hr ⟨rfl, _, hc'⟩ (hQ _ _ fun _ => ?_))
    exact ⟨_, _, AList.lookup_insert _, ha, hc'.current, rfl⟩

theorem refreshBundle_survives (hr : T.lookup id = some r) (ha : r.status = .active)
    (hc : Renewable issued (r.scope co) cs c) (hlast : up → deadline ≤ c.expiresAt)
    {endpoints : ValidatedEndpoints}
    {client : OAuthClientConfig}
    (hQ : ∀ x v', (up → Converged id (r.scope co) v'.accounts v'.credentials) → Q x v') :
    Meets (View.contract (upPorts up issued deadline) (Survives issued (r.scope co) T))
      (refreshBundle co endpoints client (r.toDue id) report).run ⟨T, cs, []⟩ Q := by
  have hdown : ∀ {x v'}, ¬ up → Q x v' := fun h => hQ _ _ fun hup => absurd hup h
  obtain ⟨token, htoken, hold⟩ := hc.token
  simp only [refreshBundle, ask, Prog.ask, meets_run_bind, meets_run_answer, View.meets_readToken,
    meets_ret]
  refine ⟨⟨rfl, c, hc⟩, fun f hf => ?_, fun c' hc' _ => ?_⟩
  -- Before the deadline the store gives the bundle, so a refusal says that something is down.
  · have hQ' : ∀ x v', Q x v' := fun _ _ => hdown (hc.not_read hlast rfl hf)
    simp only [meets_run_ite]
    exact ⟨fun _ => skip_survives hc hQ', fun _ => expire_survives hr hc hQ'⟩
  obtain rfl : c = c' := Option.some.inj (hc.current.symm.trans hc')
  simp only [htoken, utcNow, ask, Prog.ask, meets_run_bind, meets_run_answer, View.meets_utcNow,
    View.meets_exchange, meets_ret]
  refine ⟨⟨rfl, c, hc⟩, fun now => ⟨⟨rfl, c, hc⟩, ?_⟩⟩
  rintro ans ⟨hissued, hok⟩
  have hok : up → ∃ response, ans = .ok response ∧ ∃ secs ∈ response.expiresIn, 0 < secs :=
    fun hup => hok hup ⟨token, rfl, hold⟩
  cases ans with
  | error f =>
    have hdead : ¬ up := by
      intro hup
      obtain ⟨response, he, -⟩ := hok hup
      cases he
    have hQ' : ∀ x v', Q x v' := fun _ _ => hdown hdead
    simp only [meets_run_ite]
    exact ⟨fun _ => expire_survives hr hc hQ', fun _ => skip_survives hc hQ'⟩
  | ok response =>
    refine rotateOne_survives hr ha hc (hissued response rfl) (fun hup => ?_) hQ
    obtain ⟨response', he, hlives⟩ := hok hup
    cases he
    exact hlives

theorem refreshOne_survives (hr : T.lookup id = some r) (ha : r.status = .active)
    (hc : Renewable issued (r.scope co) cs c) (hlast : up → deadline ≤ c.expiresAt)
    (hconf : up → (Refresher.job job report).Configured lib r.provider)
    (hQ : ∀ x v', (up → Converged id (r.scope co) v'.accounts v'.credentials) → Q x v') :
    Meets (View.contract (upPorts up issued deadline) (Survives issued (r.scope co) T))
      (job.refreshOne lib co (r.toDue id) report).run ⟨T, cs, []⟩ Q := by
  have hdown : ¬ up → ∀ x v', Q x v' := fun h _ _ => hQ _ _ fun hup => absurd hup h
  unfold refreshOne
  split
  · rename_i e he
    refine skip_survives hc (hdown fun hup => ?_)
    obtain ⟨⟨endpoints, hok⟩, -⟩ := hconf hup
    cases he.symm.trans hok
  · split
    · rename_i hnone
      refine skip_survives hc (hdown fun hup => ?_)
      obtain ⟨-, client, hsome⟩ := hconf hup
      cases hnone.symm.trans hsome
    · exact refreshBundle_survives hr ha hc hlast hQ

end

theorem Refresher.survives (R : Refresher) (hr : T.lookup id = some r) (ha : r.status = .active)
    (hc : Renewable issued (r.scope co) cs c) (hlast : up → deadline ≤ c.expiresAt)
    (hconf : up → R.Configured lib r.provider) :
    Meets (View.contract (upPorts up issued deadline) (Survives issued (r.scope co) T))
      (R.prog lib co (r.toDue id)) ⟨T, cs, []⟩
      fun _ v' => up → Converged id (r.scope co) v'.accounts v'.credentials := by
  cases R with
  | service svc summary =>
    exact meets_bind.mpr (refreshClaimed_survives hr ha hc hlast hconf fun _ _ h => h)
  | job j report =>
    exact meets_bind.mpr (refreshOne_survives hr ha hc hlast hconf fun _ _ h => h)

end

/-! ## The crash and the next refresh -/

/-- The refresh tokens that the provider gives out are issued. -/
def Issues (issued : String → Prop) : (op : Op) → Ans op → Prop
  | .exchange _ _, .ok response => ∀ token ∈ response.refreshToken, issued token
  | _, _ => True

/-- The provider takes every refresh token that it has issued, and gives a token that lives. The store
reads what has not expired, and rotates what is there. -/
def Reachable (issued : String → Prop) (w : Hub) : (op : Op) → Ans op → Prop
  | .exchange _ form, .ok response =>
    (∃ token ∈ form.refreshToken, issued token) → ∃ secs ∈ response.expiresIn, 0 < secs
  | .exchange _ form, .error _ => ¬ ∃ token ∈ form.refreshToken, issued token
  | .readToken scope, .error _ => ∀ c ∈ w.current scope, c.expiresAt ≤ w.clock
  | .rotate scope .., .error _ => w.current scope = none
  | _, _ => True

instance [DecidablePred issued] (op : Op) (ans : Ans op) : Decidable (Issues issued op ans) := by
  unfold Issues
  split <;> infer_instance

instance [DecidablePred issued] (w : Hub) (op : Op) (ans : Ans op) :
    Decidable (Reachable issued w op ans) := by
  unfold Reachable
  split <;> infer_instance

def Hub.around (w w' : Hub) : Prop := ∃ e, Hub.env e w = some w'

/-- The account is active and inside the window. -/
def Hub.DueAt (w : Hub) (window : Int) (id : Uuid) : Prop :=
  ∃ r e, w.accounts.lookup id = some r ∧ r.status = .active ∧ r.expiresAt = some e ∧
    e < w.clock + window * microsPerSecond

/-- Nothing has been written since thread `t` has claimed the account. -/
structure Begun (w : Hub) (t : Tid) (d : DueAccount) : Prop extends Claimed w t d where
  writes : ∀ u, w.txs.writes u = []

/-- A refresh that is on its way, with a store and a provider that can fail. -/
def Underway (lib : Crates) (co : Uuid) (issued : String → Prop) (R : Refresher) (d : DueAccount)
    (t : Tid) (w : Hub) (p : Prog Sig Unit) (w' : Hub) : Prop :=
  Goes (Hub.next t) Hub.around (fun w op ans => storeAnswers w op ans ∧ Issues issued op ans)
    (R.prog lib co d) w p w'

theorem Begun.sees {w : Hub} {t : Tid} {d : DueAccount} (h : Begun w t d) :
    Sees t w ⟨w.accounts, w.credentials, []⟩ :=
  ⟨rfl, rfl, fun u => by rw [h.writes, ite_self]⟩

theorem Sees.around {w w' : Hub} {t : Tid} {v : View} (hw : w.around w') (h : Sees t w v) :
    Sees t w' v := by
  obtain ⟨e, he⟩ := hw
  exact h.env he

theorem next_clock {t : Tid} {op : Op} {ans : Ans op} {w w' : Hub}
    (h : Hub.next t op ans w = some w') : w'.clock = w.clock := by
  cases Hub.next_change h with
  | commit => exact Hub.commit_clock w t
  | quiet _ => rfl
  | _ => rfl

theorem around_clock {w w' : Hub} (h : w.around w') : w.clock ≤ w'.clock := by
  obtain ⟨e, he⟩ := h
  cases e with
  | tick clock =>
    simp only [Hub.env, Option.ite_none_right_eq_some, Option.some.injEq] at he
    obtain ⟨hle, rfl⟩ := he
    exact hle
  | kill token =>
    cases he
    exact Int.le_refl w.clock

theorem Sees.allow {t : Tid} {w : Hub} {v : View} {op : Op} {ans : Ans op} {up : Prop}
    {deadline : Time} (h : Sees t w v) (hi : Issues issued op ans)
    (hup : up → Reachable issued w op ans ∧ w.clock < deadline) :
    (upPorts up issued deadline).Allow v op ans := by
  cases op with
  | exchange endpoint form =>
    refine ⟨fun response heq => ?_, fun hu htoken => ?_⟩
    · subst heq
      exact hi
    · have hr := (hup hu).1
      cases ans with
      | error f => exact absurd htoken hr
      | ok response => exact ⟨response, rfl, hr htoken⟩
  | readToken scope =>
    rintro hu ⟨c, hc, hlast⟩
    obtain ⟨hr, hclock⟩ := hup hu
    cases ans with
    | error f =>
      -- The store refuses expired bundles only, and this one lives until the deadline.
      have hle : c.expiresAt ≤ w.clock := hr c (by rw [h.current, hc]; rfl)
      exact absurd (Int.lt_of_lt_of_le hclock hlast) (Int.not_lt.mpr hle)
    | ok b => exact ⟨b, rfl⟩
  | rotate scope b e =>
    intro hu hsome
    have hr := (hup hu).1
    cases ans with
    | error f =>
      have hnone : w.current scope = none := hr
      rw [h.current] at hnone
      rw [hnone] at hsome
      cases hsome
    | ok cid => exact ⟨cid, rfl⟩
  | _ => trivial

variable {lib : Crates} {co : Uuid} {R : Refresher} {w w' : Hub} {t : Tid} {d : DueAccount}

/-- What a refresh meets, as long as it is on its way. -/
theorem Begun.meets (h : Begun w t d) (up : Prop) (deadline : Time) {c : Credential}
    {p : Prog Sig Unit} {ok : Hub → (op : Op) → Ans op → Prop}
    (hc : Renewable issued (d.scope co) w.credentials c)
    (hlast : up → deadline ≤ c.expiresAt) (hconf : up → R.Configured lib d.provider)
    (hok : ∀ {w op ans}, ok w op ans → storeAnswers w op ans ∧ Issues issued op ans ∧
      (up → Reachable issued w op ans ∧ w.clock < deadline))
    (hrun : Goes (Hub.next t) Hub.around ok (R.prog lib co d) w p w') :
    ∃ v, Sees t w' v ∧
      Meets (View.contract (upPorts up issued deadline) (Survives issued (d.scope co) w.accounts)) p v
        fun _ v' => up → Converged d.id (d.scope co) v'.accounts v'.credentials := by
  obtain ⟨r, hr, ha, hd⟩ := h.row
  have hscope : d.scope co = r.scope co := by rw [hd]; rfl
  have hstart := R.survives hr ha (hscope ▸ hc) hlast (by rwa [hd] at hconf)
  rw [← hscope, ← hd] at hstart
  refine hrun.meets (R := Sees t) (fun hs ha hn => ?_) Sees.around h.sees hstart
  obtain ⟨hstore, hissues, hup⟩ := hok ha
  obtain ⟨v', hv, hs'⟩ := hs.op hstore hn
  exact ⟨v', ⟨hs.allow hissues hup, hv⟩, hs'⟩

/-! ## A stored bundle -/

def dueStored : Hub :=
  { dueHub with credentials := [⟨mailScope, purposeOauthToken, mailBundle, 3600000000, true⟩] }

def mailRotated : TokenBundle := successor mailBundle mailResponse 6900000000

end BackboneIntegrations.OAuth
