import BackboneIntegrations.OAuth.Mirror

/-!
# Granted scopes

With one call at a time, the scopes of an active row are the scope of its current bundle, as long as the
provider names the scope where the flow writes it to one of the two only.
-/

open Interleave

namespace BackboneIntegrations.OAuth

open IntegrationsOauthService

variable {lib : Crates} {svc : IntegrationsOauthService} {co : Uuid}

/-! ## The invariant -/

/-- Every active row has a current credential, with the scopes of the row. A scope has one row. -/
def Granted (co : Uuid) : Accounts → Credentials → Prop :=
  Paired (fun r c => c.bundle.scope = some r.scopes) co

namespace Granted

variable {T : Accounts} {cs cs' : Credentials} {id : Uuid} {r : Account} {c : Credential}

theorem scope_eq (h : Granted co T cs) (hr : T.lookup id = some r) (ha : r.status = .active)
    (hc : cs.current (r.scope co) = some c) : c.bundle.scope = some r.scopes := by
  obtain ⟨c', hc', hs⟩ := h.pair id r hr ha
  cases hc.symm.trans hc'
  exact hs

theorem unswayed : Unswayed co (Granted co) where
  replace hids hT h := h.replaced hids hT
  disconnect hr hT hcs h := h.disconnected hr hT hcs
  expire := by
    intro T cs id r u now hr hu h
    refine h.put hr (ClaimedUpdate.set_key ..) fun ha => ?_
    cases u <;> first | cases ha | cases hu
  resync := by
    intro T cs id r c now hr hc h
    refine h.put hr rfl fun ha => ⟨c, hc, ?_⟩
    have ha : r.status = .active := ha
    have hs := h.scope_eq hr ha hc
    exact hs
  mirror := by
    intro T cs id r c response e now now' hr ha hc h
    refine h.rotated hr (ClaimedUpdate.set_key ..) ?_
    have hs := h.scope_eq hr ha hc
    cases hecho : response.scope <;> simp [RefreshJob.successor, ClaimedUpdate.set, hs, hecho]

theorem completed (h : Granted co T cs) {g : Grant} {refresh : Option String}
    (hr : T.lookup g.state.accountId = some r)
    (hcs : cs.current (r.scope co) = none ∧ cs' = cs ∨ cs' = cs.withdraw (r.scope co))
    (hecho : g.response.scope = none → g.adapter.defaultScopes = "") :
    Granted co (T.insert g.state.accountId
        ((StatusUpdate.activate (g.response.scope.getD "") g.expiresAt g.now).set r))
      (⟨r.scope co, purposeOauthToken, g.bundle refresh, g.expiresAt, true⟩ :: cs') := by
  refine Paired.completed h hr (StatusUpdate.set_key ..) ?_ hcs
  cases hs : g.response.scope with
  | none => simp [Grant.bundle, StatusUpdate.set, hs, hecho hs]
  | some scope => simp [Grant.bundle, StatusUpdate.set, hs]

theorem mirrored (h : Granted co T cs) (hr : T.lookup id = some r) (ha : r.status = .active)
    (hc : cs.current (r.scope co) = some c) {response : TokenResponse} {e now : Time}
    (hecho : response.scope.or c.bundle.scope = c.bundle.scope) :
    Granted co (T.insert id ((ClaimedUpdate.mirrorNow e).set now r))
      (⟨r.scope co, purposeOauthToken, RefreshJob.successor c.bundle response e, e, true⟩ ::
        cs.withdraw (r.scope co)) := by
  refine Paired.rotated h hr (ClaimedUpdate.set_key ..) ?_
  have hs := h.scope_eq hr ha hc
  exact hecho.trans hs

end Granted

/-! ## What the provider names -/

/-- The answer of the provider, where there is one. -/
def exchanged : (op : Op) → Ans op → Option TokenResponse
  | .exchange .., .ok response => some response
  | _, _ => none

/-- A code exchange names the scope, where the provider has a default. The answer to a refresh of the job
names no scope but the stored one of the account that the job has locked. -/
def Echoes (lib : Crates) (svc : IntegrationsOauthService) (co : Uuid) (t : Tid) (w : Hub)
    (response : TokenResponse) : Call → Prop
  | .complete _ req =>
    response.scope = none → ∀ state ∈ (svc.signer.binding lib req.state).toOption,
      ∀ r ∈ w.accounts.lookup state.accountId, ∀ adapter ∈ svc.registry.lookup r.provider,
        adapter.defaultScopes = ""
  | .refreshOauthCredentials .. | .refreshForCompanies .. =>
    ∀ e ∈ w.accounts.entries, w.txs.holder e.1 = some t → ∀ c ∈ w.current (e.2.scope co),
      response.scope.or c.bundle.scope = c.bundle.scope
  | .authorize _ | .disconnect .. | .status _ | .refreshDue _ | .ensureFresh .. => True

def Echoed (co : Uuid) (cfg : Config (system lib svc)) : Label (system lib svc) → Prop
  | .op t op ans =>
    ∀ c ∈ cfg.call? t, ∀ response ∈ exchanged op ans, Echoes lib svc co t cfg.world response c
  | _ => True

/-- One call at a time under one store scope, and the provider names the scopes. -/
def Echoing (co : Uuid) (cfg : Config (system lib svc)) (l : Label (system lib svc)) : Prop :=
  OneAtATime (ScopeCall co) (· = Op.panic) storeAnswers cfg l ∧ Echoed co cfg l

/-! ## The contract of a call alone -/

/-- The view of the call, and the account that it has claimed. -/
abbrev Holding := View × Option DueAccount

def Holds (t : Tid) (w : Hub) (s : Holding) : Prop :=
  Sees t w s.1 ∧ ∀ d ∈ s.2, w.txs.holder d.id = some t

def claimedAfter : (op : Op) → Ans op → Option DueAccount → Option DueAccount
  | .claimDue .., .ok (some d), _ => some d
  | .commit, _, _ | .rollback, _, _ | .drop, _, _ => none
  | _, _, claimed => claimed

theorem Hub.Change.holder_kept {t : Tid} {w w' : Hub} {op : Op} {ans : Ans op} (h : Change t w op ans w')
    {claimed : Option DueAccount} (hold : ∀ d ∈ claimed, w.txs.holder d.id = some t) :
    ∀ d ∈ claimedAfter op ans claimed, w'.txs.holder d.id = some t := by
  have lock : ∀ {x}, ∀ d ∈ claimed, (w.txs.lock t x).holder d.id = some t := by
    intro x d hd
    rw [Txs.lock_holder]
    split
    · rfl
    · exact hold d hd
  cases h with
  | deleteRow | updateTx | claimById => exact lock
  | claimDue =>
    rintro d ⟨⟩
    rw [Hub.lock_txs, Txs.lock_holder, if_pos rfl]
  | commit | rollback | drop => rintro d ⟨⟩
  | quiet hq =>
    unfold claimedAfter
    split
    · exact hq.elim
    · rintro d ⟨⟩
    · rintro d ⟨⟩
    · rintro d ⟨⟩
    · exact hold
  | _ => exact hold

def echoing (lib : Crates) (svc : IntegrationsOauthService) (co : Uuid) (c : Call) :
    Contract Sig Holding where
  must s op := panicsIn (Granted co) s.1 op
  may s op ans s' := (∃ t w, Holds t w s ∧ ∀ response ∈ exchanged op ans, Echoes lib svc co t w response c) ∧
    s.1.next op ans s'.1 ∧
    s'.2 = claimedAfter op ans s.2

section

variable {c : Call} {α : Type} {v : View} {claimed : Option DueAccount} {Q : α → Holding → Prop}

theorem heard_of_alone {p : Prog Sig α}
    (h : Meets (View.contract .any (panicsIn (Granted co))) p v fun a v' => ∀ claimed', Q a (v', claimed')) :
    Meets (echoing lib svc co c) p (v, claimed) Q := by
  have hsim : Meets (echoing lib svc co c) p (v, claimed) fun a s =>
      ∃ v', s.1 = v' ∧ ∀ claimed', Q a (v', claimed') := by
    refine h.sim (R := fun v (s : Holding) => s.1 = v) ?_ ?_ rfl
    · rintro v s op rfl hm
      exact hm
    · rintro v s op ans s' rfl - ⟨-, hn, -⟩
      exact ⟨_, ⟨Ports.any_allow .., hn⟩, rfl⟩
  refine hsim.mono ?_
  rintro a ⟨v', claimed'⟩ ⟨_, rfl, hQ⟩
  exact hQ claimed'

theorem meets_heard {op : Op} {k : Ans op → Prog Sig α} (hop : op ≠ .panic)
    (hstill : ∀ ans v', v.next op ans v' → v' = v)
    (hk : ∀ ans, v.next op ans v →
      (∃ t w, Holds t w (v, claimed) ∧ ∀ response ∈ exchanged op ans, Echoes lib svc co t w response c) →
      Meets (echoing lib svc co c) (k ans) (v, claimedAfter op ans claimed) Q) :
    Meets (echoing lib svc co c) (.call (S := Sig) op k) (v, claimed) Q := by
  refine ⟨fun hp => absurd hp hop, ?_⟩
  rintro ans ⟨v', claimed'⟩ ⟨hecho, hn, rfl⟩
  obtain rfl := hstill ans v' hn
  exact hk ans hn hecho

end

/-! ## `complete` -/

section

variable {T : Accounts} {cs : Credentials} {claimed : Option DueAccount}

theorem identify_heard {req : CompleteRequest} {state : OAuthState} {r : Account}
    {adapter : ProviderAdapter} {endpoints : ValidatedEndpoints} {clientId : String}
    {verifier : Option String} (h : Granted co T cs)
    (hb : svc.signer.binding lib req.state = .ok state) (hr : T.lookup state.accountId = some r)
    (hadapter : svc.registry.lookup r.provider = some adapter)
    {Q : Except OauthError Grant → Holding → Prop}
    (herr : ∀ e claimed', Q (.error e) (⟨T, cs, []⟩, claimed'))
    (hok : ∀ g : Grant, g.state = state → g.account = r.toRow state.accountId →
      (g.response.scope = none → g.adapter.defaultScopes = "") →
      ∀ claimed', Q (.ok g) (⟨T, cs, []⟩, claimed')) :
    Meets (echoing lib svc co (.complete co req))
      (svc.identify lib req state (r.toRow state.accountId) adapter endpoints clientId verifier).run
      (⟨T, cs, []⟩, claimed) Q := by
  simp only [identify, utcNow, ask, Prog.ask, meets_run_bind, meets_run_orFail, meets_run_answer]
  refine meets_heard (by rintro ⟨⟩) (fun _ _ hn => hn) ?_
  rintro (f | response) - hecho
  · exact herr _ _
  -- The provider names the scope in the answer, unless there is no default that could differ from
  -- it.
  have hdefault : response.scope = none → adapter.defaultScopes = "" := by
    obtain ⟨t, w, ⟨hs, -⟩, hecho⟩ := hecho
    intro hnone
    refine hecho response rfl hnone state (by rw [hb]; rfl) r ?_ adapter hadapter
    rw [hs.accounts]
    exact hr
  refine meets_heard (by rintro ⟨⟩) (fun _ _ hn => hn) fun now _ _ => ?_
  refine meets_expiresAt (fun _ => h) (herr _ _) fun secs e _ _ _ => ?_
  simp only [meets_run_bind, meets_run_orFail]
  refine meets_heard (by rintro ⟨⟩) (fun _ _ hn => hn) ?_
  rintro (f | identity) - -
  · exact herr _ _
  simp only [meets_ret, Except.mapError, meets_run_ofExcept, meets_run_pure]
  split
  · split
    · exact hok _ rfl rfl hdefault _
    · exact herr _ _
  · exact herr _ _

theorem gauntlet_heard {req : CompleteRequest} (h : Granted co T cs)
    {Q : Except OauthError Grant → Holding → Prop}
    (herr : ∀ e claimed', Q (.error e) (⟨T, cs, []⟩, claimed'))
    (hok : ∀ g : Grant, g.Pending T → (g.response.scope = none → g.adapter.defaultScopes = "") →
      ∀ claimed', Q (.ok g) (⟨T, cs, []⟩, claimed')) :
    Meets (echoing lib svc co (.complete co req)) (svc.gauntlet lib req).run (⟨T, cs, []⟩, claimed) Q := by
  have hm : ∀ {v : View} (op : Op), op ≠ .panic → panicsIn (Granted co) v op :=
    fun _ hne hp => absurd hp hne
  rw [gauntlet, meets_run_bind]
  refine heard_of_alone (verify_alone hm herr fun state hb claimed => ?_)
  simp only [meets_run_bind]
  refine heard_of_alone (pendingAccount_alone hm herr ?_)
  intro r adapter endpoints clientId hr hp hadapter claimed
  have hrest : ∀ verifier claimed, Meets (echoing lib svc co (.complete co req))
      (svc.identify lib req state (r.toRow state.accountId) adapter endpoints clientId verifier).run
      (⟨T, cs, []⟩, claimed) Q := by
    intro verifier claimed
    refine identify_heard h hb hr hadapter herr ?_
    rintro g rfl ha hecho claimed'
    exact hok g ⟨r, hr, hp, ha⟩ hecho claimed'
  simp only [meets_run_bind, meets_run_ite, meets_run_map]
  refine ⟨fun _ => ?_, fun _ => hrest none _⟩
  exact heard_of_alone (storedVerifier_alone hm herr fun _ _ => hrest _ _)

theorem complete_heard (h : Granted co T cs) (req : CompleteRequest) :
    Meets (echoing lib svc co (.complete co req)) (svc.complete lib co req).run (⟨T, cs, []⟩, claimed)
      fun _ s => Granted co s.1.accounts s.1.credentials := by
  rw [complete, meets_run_bind]
  refine gauntlet_heard h (fun _ _ => h) ?_
  rintro g ⟨r, hr, hp, ha⟩ hecho claimed'
  have hstoring := storing_alone h hr hp ha fun refresh cs' hcs => h.completed hr hcs hecho
  exact heard_of_alone (hstoring.mono fun _ _ hv _ => hv)

end

/-! ## The job -/

section

open RefreshJob

variable {c : Call} {job : RefreshJob} {T : Accounts} {cs : Credentials} {claimed : Option DueAccount}
  {id : Uuid} {r : Account} {report : RefreshReport}
  {Q : Except DbError RefreshReport → Holding → Prop}

/-- The two calls that run the job. -/
def RunsJob : Call → Prop
  | .refreshOauthCredentials .. | .refreshForCompanies .. => True
  | _ => False

theorem skip_heard (h : Granted co T cs)
    (hQ : ∀ x T' cs' claimed', Granted co T' cs' → Q x (⟨T', cs', []⟩, claimed')) :
    Meets (echoing lib svc co c) (skip report).run (⟨T, cs, []⟩, claimed) Q :=
  heard_of_alone (skip_alone h fun x T' cs' h' claimed' => hQ x T' cs' claimed' h')

theorem expire_heard (h : Granted co T cs) (hr : T.lookup id = some r)
    (hQ : ∀ x T' cs' claimed', Granted co T' cs' → Q x (⟨T', cs', []⟩, claimed')) :
    Meets (echoing lib svc co c) (expire id report).run (⟨T, cs, []⟩, claimed) Q :=
  heard_of_alone (expire_alone Granted.unswayed h hr fun x T' cs' h' claimed' => hQ x T' cs' claimed' h')

theorem echo_of_heard (hc : RunsJob c) {cr : Credential} {response : TokenResponse}
    {endpoint : ValidatedEndpoint} {form : TokenRequestForm} (hr : T.lookup id = some r)
    (hcur : cs.current (r.scope co) = some cr)
    (h : ∃ t w, Holds t w (⟨T, cs, []⟩, some (r.toDue id)) ∧
      ∀ response' ∈ exchanged (.exchange endpoint form) (.ok response),
        Echoes lib svc co t w response' c) :
    response.scope.or cr.bundle.scope = cr.bundle.scope := by
  obtain ⟨t, w, ⟨hs, hheld⟩, hecho⟩ := h
  have hentry : (⟨id, r⟩ : Σ _ : Uuid, Account) ∈ w.accounts.entries := by
    rw [hs.accounts]
    exact AList.mem_lookup_iff.mp hr
  have hcurrent : w.current (r.scope co) = some cr := by rw [hs.current]; exact hcur
  have hlock : w.txs.holder id = some t := hheld _ rfl
  cases c with
  | refreshOauthCredentials | refreshForCompanies => exact hecho response rfl _ hentry hlock cr hcurrent
  | _ => exact hc.elim

theorem refreshBundle_heard (hc : RunsJob c) (h : Granted co T cs) (hr : T.lookup id = some r)
    (ha : r.status = .active) {endpoints : ValidatedEndpoints} {client : OAuthClientConfig}
    (hQ : ∀ x T' cs' claimed', Granted co T' cs' → Q x (⟨T', cs', []⟩, claimed')) :
    Meets (echoing lib svc co c) (refreshBundle co endpoints client (r.toDue id) report).run
      (⟨T, cs, []⟩, some (r.toDue id)) Q := by
  simp only [refreshBundle, ask, Prog.ask, meets_run_bind, meets_run_answer]
  refine meets_heard (by rintro ⟨⟩) ?_ ?_
  · rintro (f | b) v' hn
    · exact hn
    · exact hn.2
  rintro (f | b) hn -
  · simp only [meets_ret, meets_run_ite]
    exact ⟨fun _ => skip_heard h hQ, fun _ => expire_heard h hr hQ⟩
  obtain ⟨⟨cr, hcur, rfl⟩, -⟩ := hn
  simp only [meets_ret]
  split
  · exact expire_heard h hr hQ
  · simp only [utcNow, ask, Prog.ask, meets_run_bind, meets_run_answer]
    refine meets_heard (by rintro ⟨⟩) (fun _ _ hn => hn) fun now _ _ => ?_
    refine meets_heard (by rintro ⟨⟩) (fun _ _ hn => hn) ?_
    rintro (f | response) - hecho
    · simp only [meets_ret, meets_run_ite]
      exact ⟨fun _ => expire_heard h hr hQ, fun _ => skip_heard h hQ⟩
    · simp only [meets_ret]
      refine heard_of_alone (rotateOne_alone Granted.unswayed h hr (fun e now' => ?_) ?_)
      · exact h.mirrored hr ha hcur (echo_of_heard hc hr hcur hecho)
      · exact fun x T' cs' h' claimed' => hQ x T' cs' claimed' h'

theorem refreshOne_heard (hc : RunsJob c) (h : Granted co T cs) (hr : T.lookup id = some r)
    (ha : r.status = .active)
    (hQ : ∀ x T' cs' claimed', Granted co T' cs' → Q x (⟨T', cs', []⟩, claimed')) :
    Meets (echoing lib svc co c) (job.refreshOne lib co (r.toDue id) report).run
      (⟨T, cs, []⟩, some (r.toDue id)) Q := by
  unfold refreshOne
  split
  · exact skip_heard h hQ
  · split
    · exact skip_heard h hQ
    · exact refreshBundle_heard hc h hr ha hQ

theorem refreshLoop_heard (hc : RunsJob c) (h : Granted co T cs) {left : Nat} {attempted : List Uuid}
    (hQ : ∀ x T' cs' claimed', Granted co T' cs' → Q x (⟨T', cs', []⟩, claimed')) :
    Meets (echoing lib svc co c) (job.refreshLoop lib co left attempted report).run
      (⟨T, cs, []⟩, claimed) Q := by
  induction left generalizing T cs claimed attempted report with
  | zero => exact hQ _ _ _ _ h
  | succ left ih =>
    simp only [refreshLoop, RefreshJob.sql, ask, Prog.ask, meets_run_bind, meets_run_orFail]
    refine meets_heard (by rintro ⟨⟩) ?_ ?_
    · rintro (e | ⟨⟩) v' hn
      · exact hn.elim
      · exact hn
    rintro (e | ⟨⟩) hn -
    · exact hn.elim
    refine meets_heard (by rintro ⟨⟩) ?_ ?_
    · rintro (e | _ | d) v' hn
      · exact hn.elim
      · exact hn
      · exact hn.2
    rintro (e | _ | d) hn -
    · exact hn.elim
    · simp only [meets_ret, Except.mapError, meets_run_bind]
      refine meets_heard (by rintro ⟨⟩) ?_ ?_
      · rintro (e | ⟨⟩) v' hn
        · exact hn.elim
        · exact hn
      · rintro (e | ⟨⟩) hn -
        · exact hn.elim
        · exact hQ _ _ _ _ h
    -- The claim has the row as it is, and the rest of the round is about this one account.
    obtain ⟨⟨r, hr, ha, hd⟩, -⟩ := hn
    simp only [meets_ret, Except.mapError, meets_run_bind, claimedAfter]
    rw [hd]
    refine refreshOne_heard hc h hr ha ?_
    rintro (e | report') T' cs' claimed' h'
    · exact hQ _ _ _ _ h'
    · exact ih h'

theorem refreshForCompanies_heard (hc : RunsJob c) (h : Granted co T cs) (companies : List Uuid)
    (hall : ∀ company ∈ companies, company = co) :
    Meets (echoing lib svc co c) (job.refreshForCompanies lib companies) (⟨T, cs, []⟩, claimed)
      fun _ s => Granted co s.1.accounts s.1.credentials := by
  induction companies generalizing T cs claimed with
  | nil => exact h
  | cons company companies ih =>
    obtain ⟨rfl, hrest⟩ := List.forall_mem_cons.mp hall
    simp only [refreshForCompanies, ask, Prog.ask, meets_bind]
    refine refreshLoop_heard hc h fun x T' cs' claimed' h' => ?_
    refine heard_of_alone (View.meets_drop.mpr ⟨by rintro ⟨⟩, fun claimed'' => ?_⟩)
    exact (ih h' hrest).mono fun _ _ h'' => h''

end

/-! ## Every call -/

theorem call_heard {T : Accounts} {cs : Credentials} (h : Granted co T cs) {c : Call}
    (hc : ScopeCall co c) : Meets (echoing lib svc co c) (prog lib svc c) (⟨T, cs, []⟩, none)
      fun _ s => Granted co s.1.accounts s.1.credentials := by
  have hlift : ∀ {p : Prog Sig (Res c)}, Keeps (Granted co) p ⟨T, cs, []⟩ →
      Meets (echoing lib svc co c) p (⟨T, cs, []⟩, none)
        fun _ s => Granted co s.1.accounts s.1.credentials :=
    fun hp => heard_of_alone (hp.mono fun _ _ hv _ => hv)
  cases c with
  | authorize req => exact hlift (authorize_alone Granted.unswayed h req)
  | status id => exact hlift (status_alone h id)
  | complete companyId req =>
    cases hc
    exact complete_heard h req
  | disconnect companyId id =>
    cases hc
    exact hlift (disconnect_alone Granted.unswayed h id)
  | refreshDue companyId =>
    cases hc
    exact hlift (refreshDueLoop_alone Granted.unswayed h _ _)
  | ensureFresh companyId id =>
    cases hc
    exact hlift (ensureFresh_alone Granted.unswayed h id)
  | refreshOauthCredentials job companyId =>
    cases hc
    have hjob : RunsJob (.refreshOauthCredentials job co) := trivial
    exact refreshLoop_heard hjob h fun _ _ _ _ h' => h'
  | refreshForCompanies job companies =>
    have hjob : RunsJob (.refreshForCompanies job companies) := trivial
    exact refreshForCompanies_heard hjob h companies hc

theorem echoing_solos : Solos (system lib svc) (Echoing co) (echoing lib svc co) Holds
    (Rest (Granted co)) where
  alone hok := hok.1.2
  call := by
    intro cfg t c hok hrest
    refine ⟨(⟨Hub.accounts cfg.world, Hub.credentials cfg.world, []⟩, none),
      ⟨⟨rfl, rfl, fun u => ?_⟩, ?_⟩, ?_⟩
    · rw [hrest.writes, ite_self]
    · rintro d ⟨⟩
    · exact (call_heard hrest.keeps hok.1.1).mono fun _ s hs w' hw' => hw'.1.rest hs
  op := by
    intro cfg t c p op ans w' s ht hok hs hn
    obtain ⟨v', hv, hsees⟩ := hs.1.op hok.1 hn
    refine ⟨(v', claimedAfter op ans s.2), ⟨⟨t, cfg.world, hs, ?_⟩, hv, rfl⟩, hsees, ?_⟩
    · refine hok.2 c ?_
      rw [Config.call?, ht]
      rfl
    · exact (Hub.next_change hn).holder_kept hs.2
  death := by
    intro cfg t c p s ht hok hs hm
    obtain ⟨⟨c', op, k, ht', hdies⟩, -⟩ := hok
    rw [ht] at ht'
    cases ht'
    exact hs.1.rest (hm op k rfl hdies)
  env := by
    intro t e w w' s hw hs
    refine ⟨hs.1.env hw, ?_⟩
    cases e with
    | tick clock =>
      simp only [system, Hub.env, Option.ite_none_right_eq_some, Option.some.injEq] at hw
      obtain ⟨-, rfl⟩ := hw
      exact hs.2
    | kill token =>
      cases hw
      exact hs.2
  calm hw h := h.env hw

/-- **The granted scopes agree.** With one call at a time under one store scope, and a provider that names
the scopes, each active row has a current bundle between any two calls, and the scope of the bundle is the
scopes of the row. -/
theorem granted_scope_agreement {init : Hub → Prop} (hinit : ∀ w, init w → Rest (Granted co) w)
    {cfg : Config (system lib svc)} (hr : Reach (system lib svc) init (Echoing co) cfg)
    (hq : ∀ t, (cfg.threads t).Quiet) {id : Uuid} {r : Account}
    (hrow : cfg.world.accounts.lookup id = some r) (ha : r.status = .active) :
    ∃ c, cfg.world.current (r.scope co) = some c ∧ c.bundle.scope = some r.scopes :=
  (echoing_solos.rest_of_quiet hinit hr hq).keeps.pair id r hrow ha

/-! ## A completion that names the scopes, and a silent one -/

instance (t : Tid) (w : Hub) (response : TokenResponse) :
    (c : Call) → Decidable (Echoes lib svc co t w response c)
  | .complete _ req => inferInstanceAs (Decidable (response.scope = none →
      ∀ state ∈ (svc.signer.binding lib req.state).toOption, ∀ r ∈ w.accounts.lookup state.accountId,
        ∀ adapter ∈ svc.registry.lookup r.provider, adapter.defaultScopes = ""))
  | .refreshOauthCredentials .. | .refreshForCompanies .. => inferInstanceAs (Decidable
      (∀ e ∈ w.accounts.entries, w.txs.holder e.1 = some t → ∀ c ∈ w.current (e.2.scope co),
        response.scope.or c.bundle.scope = c.bundle.scope))
  | .authorize _ | .disconnect .. | .status _ | .refreshDue _ | .ensureFresh .. => .isTrue trivial

instance (cfg : Config (system lib svc)) : (l : Label (system lib svc)) → Decidable (Echoed co cfg l)
  | .op t op ans => inferInstanceAs (Decidable (∀ c ∈ cfg.call? t, ∀ response ∈ exchanged op ans,
      Echoes lib svc co t cfg.world response c))
  | .start .. | .finish _ | .crash _ | .env _ => .isTrue trivial

def namedResponse : TokenResponse := { mailResponse with scope := some "mail.read" }

def namedBundle : TokenBundle := { mailBundle with scope := some "mail.read" }

def namedSuccessor : TokenBundle := RefreshJob.successor namedBundle mailRefreshed 6700000000

/-- The provider names the scope of the exchange, and the job refreshes without one. -/
def namedRenewal : List (Label (system mailCrates mailService)) :=
  [.start 0 (.complete 9 mailRequest), .op 0 .utcNow (0 : Int),
    .op 0 (.fetchAccount 1) (.ok (some mailRow)),
    .op 0 (.fetchVerifier 1) (.ok (some (some "verifier"))),
    .op 0 (.exchange gmailToken mailForm) (.ok namedResponse), .op 0 .utcNow (0 : Int),
    .op 0 (.fetchIdentity gmailUserinfo "access-1") (.ok (mailIdentity "user@example.com")),
    .op 0 (.issue mailScope purposeOauthToken namedBundle 3600000000) (.ok (77 : Nat)),
    .op 0 (.update 1 (.activate "mail.read" 3600000000 0)) (.ok (1 : Nat)), .finish 0,
    .env (.tick 3100000000),
    .start 1 (.refreshOauthCredentials mailJob 9), .op 1 .begin (.ok ()),
    .op 1 (.claimDue 600 []) (.ok (some dueAccount)),
    .op 1 (.readToken mailScope) (.ok namedBundle), .op 1 .utcNow (3100000000 : Int),
    .op 1 (.exchange gmailToken mailRefreshForm) (.ok mailRefreshed),
    .op 1 (.rotate mailScope namedSuccessor 6700000000) (.ok (78 : Nat)),
    .op 1 (.updateTx 1 (.mirrorNow 6700000000)) (.ok (1 : Nat)),
    .op 1 .commit (.ok ()), .op 1 .begin (.ok ()), .op 1 (.claimDue 600 [1]) (.ok none),
    .op 1 .rollback (.ok ()), .finish 1]

/-- Both calls are over, and the row and the stored bundle are as given. -/
def scopesEnd (scopes : String) (bundle : TokenBundle) (cfg : Config (system mailCrates mailService)) :
    Bool :=
  decide (∀ t : Nat, t < 2 → (cfg.threads t).Quiet) &&
    ((Hub.accounts cfg.world).lookup 1).any (fun r => decide (r.key = ("gmail", "user@example.com")) &&
      r.status == .active && r.scopes == scopes) &&
    (Hub.current cfg.world mailScope).any fun c => decide (c.bundle = bundle)

theorem scopesEnd_spec {scopes : String} {bundle : TokenBundle}
    {cfg : Config (system mailCrates mailService)} (h : scopesEnd scopes bundle cfg = true)
    (hidle : ∀ t, 2 ≤ t → cfg.threads t = .idle) :
    (∀ t, (cfg.threads t).Quiet) ∧ (∃ r, cfg.world.accounts.lookup 1 = some r ∧ r.scope 9 = mailScope ∧
      r.status = .active ∧ r.scopes = scopes) ∧
      ∃ c, cfg.world.current mailScope = some c ∧ c.bundle = bundle := by
  simp only [scopesEnd, Bool.and_eq_true, Option.any_eq_true, decide_eq_true_eq, beq_iff_eq] at h
  obtain ⟨⟨hquiet, r, hrow, ⟨hkey, ha⟩, hs⟩, c, hc, hb⟩ := h
  refine ⟨fun t => ?_, ⟨r, hrow, ?_, ha, hs⟩, c, hc, hb⟩
  · by_cases ht : t < 2
    · exact hquiet t ht
    · rw [hidle t (Nat.le_of_not_lt ht)]
      trivial
  · obtain ⟨hprovider, href⟩ := Prod.mk.inj hkey
    rw [Account.scope, hprovider, href]
    rfl

theorem mailHub_granted : Rest (Granted 9) mailHub where
  keeps :=
    { pair := fun id r hr ha => by
        obtain ⟨-, rfl⟩ := mailHub_row hr
        cases ha
      unique := fun id id' r r' hr hr' _ => by
        obtain ⟨rfl, -⟩ := mailHub_row hr
        obtain ⟨rfl, -⟩ := mailHub_row hr'
        rfl }
  writes _ := rfl

theorem namedRenewal_runs : (replay (fun cfg l => OneOf 2 (ScopeCall 9) storeAnswers cfg l ∧ Echoed 9 cfg l)
    (.init mailHub) namedRenewal).any (scopesEnd "mail.read" namedSuccessor) = true := by
  decide +kernel

theorem granted_scope_agreement_mailbox : ∃ (cfg : Config (system mailCrates mailService)) (r : Account),
    cfg.hist = namedRenewal.reverse ∧ cfg.world.accounts.lookup 1 = some r ∧ r.scopes = "mail.read" ∧
      ∃ c, cfg.world.current mailScope = some c ∧ c.bundle.scope = some r.scopes := by
  obtain ⟨cfg, hr, hh, hend⟩ : ∃ cfg, Reach (system mailCrates mailService) (· = mailHub)
      (fun cfg l => OneOf 2 (ScopeCall 9) storeAnswers cfg l ∧ Echoed 9 cfg l) cfg ∧
        cfg.hist = namedRenewal.reverse ∧ scopesEnd "mail.read" namedSuccessor cfg = true := by
    refine Reach.exists_of_replay ?_ namedRenewal_runs
    rfl
  have hone : Reach _ _ (OneAtATime (ScopeCall 9) (· = Op.panic) storeAnswers) cfg ∧ _ :=
    (hr.mono fun _ _ h => h.1).one_at_a_time
  obtain ⟨hq, ⟨r, hrow, hscope, ha, hs⟩, -⟩ := scopesEnd_spec hend hone.2
  have hinit : ∀ w, w = mailHub → Rest (Granted 9) w := fun w hw => hw ▸ mailHub_granted
  obtain ⟨c, hc, hagree⟩ := granted_scope_agreement hinit hr.one_at_a_time_and hq hrow ha
  exact ⟨cfg, r, hh, hrow, hs, c, hscope ▸ hc, hagree⟩

theorem mailCompletion_runs : (replay (OneOf 2 (ScopeCall 9) storeAnswers) (.init mailHub)
    (mailRenewal.take 10)).any (scopesEnd "" mailBundle) = true := by
  decide +kernel

/-- After an exchange without a scope, the row has no scopes, and the bundle has the default ones. -/
theorem silent_exchange_disagrees : ∃ (cfg : Config (system mailCrates mailService)) (r : Account)
    (c : Credential), Reach (system mailCrates mailService) (· = mailHub)
      (OneAtATime (ScopeCall 9) (· = Op.panic) storeAnswers) cfg ∧ (∀ t, (cfg.threads t).Quiet) ∧
      cfg.world.accounts.lookup 1 = some r ∧ r.status = .active ∧
      cfg.world.current (r.scope 9) = some c ∧ c.bundle.scope ≠ some r.scopes := by
  obtain ⟨cfg, hr, -, hend⟩ : ∃ cfg, Reach (system mailCrates mailService) (· = mailHub)
      (OneOf 2 (ScopeCall 9) storeAnswers) cfg ∧ cfg.hist = (mailRenewal.take 10).reverse ∧
        scopesEnd "" mailBundle cfg = true := by
    refine Reach.exists_of_replay ?_ mailCompletion_runs
    rfl
  obtain ⟨hone, hidle⟩ := hr.one_at_a_time
  obtain ⟨hq, ⟨r, hrow, hscope, ha, hs⟩, c, hc, hb⟩ := scopesEnd_spec hend hidle
  refine ⟨cfg, r, c, hone, hq, hrow, ha, hscope ▸ hc, ?_⟩
  rw [hb, hs]
  decide

end BackboneIntegrations.OAuth
