import BackboneIntegrations.OAuth.Agree
import BackboneIntegrations.OAuth.Turns

/-!
# Refreshes that come in time

A sweep that reads a bundle after its expiry ends the account, even if the provider still takes its
refresh token. A sweep that comes before the expiry ends only accounts that cannot be renewed.
-/

open Interleave

namespace BackboneIntegrations.OAuth

open IntegrationsOauthService

variable {lib : Crates} {svc : IntegrationsOauthService} {co : Uuid}

/-! ## In time -/

/-- The refresh paths under one store scope. -/
def RefreshCall (co : Uuid) : Call → Prop
  | .refreshDue companyId | .ensureFresh companyId _ | .refreshOauthCredentials _ companyId =>
    companyId = co
  | _ => False

/-- The store and the provider are there. A refusal that is not about the connection is about the
credential, and `invalid_grant` is about the token. -/
def Reached (w : Hub) : (op : Op) → Ans op → Prop
  | .readToken scope, .ok b => ∃ c ∈ w.current scope, c.bundle = b
  | .readToken scope, .error f => ¬ f.isTransport → ∀ c ∈ w.current scope, c.expiresAt ≤ w.clock
  | .rotate scope .., .error f => ¬ f.isTransport → w.current scope = none
  | .exchange _ form, .error f => f.isInvalidGrant → ∃ token ∈ form.refreshToken, token ∈ w.dead
  | _, _ => True

/-- The provider still takes the refresh token of the bundle. -/
def Hub.Renews (w : Hub) (b : TokenBundle) : Prop := ∃ token ∈ b.refreshToken, token ∉ w.dead

/-- A bundle that can be renewed is read before it expires. -/
def Punctual (w : Hub) : Op → Prop
  | .readToken scope => ∀ c ∈ w.current scope, w.Renews c.bundle → w.clock < c.expiresAt
  | _ => True

/-- What a refresh in time can meet. Every statement can fail. -/
def inTime (w : Hub) (op : Sig.Op) (ans : Sig.Ans op) : Prop := Reached w op ans ∧ Punctual w op

/-! ## The contract of a refresh alone -/

/-- No current credential of the scope has a refresh token that is not dead. -/
def Unrenewable (cs : Credentials) (dead : List String) (scope : CredentialScope) : Prop :=
  ∀ c, cs.current scope = some c → ∀ token ∈ c.bundle.refreshToken, token ∈ dead

/-- The view of the call, and refresh tokens that are dead. -/
abbrev Watch := View × List String

def Watches (t : Tid) (w : Hub) (s : Watch) : Prop := Sees t w s.1 ∧ s.2 ⊆ w.dead

/-- The open writes end no account that can be renewed. -/
def EndsUnrenewable (co : Uuid) (s : Watch) : Prop :=
  ∀ id u now r, .update id u now ∈ s.1.writes → u.Expires → s.1.accounts.lookup id = some r →
    Unrenewable s.1.credentials s.2 (r.scope co)

def punctual (co : Uuid) : Contract Sig Watch where
  must s op := op = .commit → EndsUnrenewable co s
  may s op ans s' := ∃ t w w', Watches t w s ∧ inTime w op ans ∧ Hub.next t op ans w = some w' ∧
    Sees t w' s'.1 ∧ s'.2 = w'.dead

theorem Hub.next_dead {t : Tid} {op : Op} {ans : Ans op} {w w' : Hub} (h : next t op ans w = some w') :
    w'.dead = w.dead := by
  cases next_change h with
  | commit => exact commit_dead w t
  | quiet _ => rfl
  | _ => rfl

theorem Unrenewable.mono {cs : Credentials} {dead dead' : List String} {scope : CredentialScope}
    (h : Unrenewable cs dead scope) (hsub : dead ⊆ dead') : Unrenewable cs dead' scope :=
  fun c hc token ht => hsub (h c hc token ht)

section

variable {v : View} {dead : List String} {α : Type} {Q : α → Watch → Prop}

/-- The operations of a refresh that change nothing in its view. -/
def lookingOp : Op → Prop
  | .utcNow | .begin | .fetchAccount _ | .claimDue .. | .claimById _ | .readToken _ | .exchange .. =>
    True
  | _ => False

/-- What the answer says. -/
def Tells (v : View) (dead : List String) : (op : Op) → Ans op → Prop
  | .claimDue .., .ok (some d) => ∃ r, v.accounts.lookup d.id = some r ∧ d = r.toDue d.id
  | .claimById id, .ok (some d) => ∃ r, v.accounts.lookup id = some r ∧ d = r.toDue id
  | .readToken scope, .ok b => ∃ c, v.credentials.current scope = some c ∧ c.bundle = b
  | .readToken scope, .error f => ¬ f.isTransport → Unrenewable v.credentials dead scope
  | .exchange _ form, .error f => f.isInvalidGrant → ∃ token ∈ form.refreshToken, token ∈ dead
  | _, _ => True

theorem tells_of_next {t : Tid} {w w' : Hub} {op : Op} {ans : Ans op} (hs : Sees t w v)
    (ha : inTime w op ans) (hn : Hub.next t op ans w = some w') : Tells v w.dead op ans := by
  obtain ⟨hreached, hpunctual⟩ := ha
  cases op with
  | claimDue window attempted =>
    rcases ans with e | _ | d
    · trivial
    · trivial
    · cases Hub.next_change hn with
      | quiet hq => exact hq.elim
      | claimDue hr hd => exact ⟨_, hs.accounts ▸ hr, hd⟩
  | claimById id =>
    rcases ans with e | _ | d
    · trivial
    · trivial
    · cases Hub.next_change hn with
      | quiet hq => exact hq.elim
      | claimById hr hd => exact ⟨_, hs.accounts ▸ hr, hd⟩
  | readToken scope =>
    rcases ans with f | b
    · intro hf c hc token ht
      rw [← hs.current] at hc
      -- The store refuses expired bundles only, and in time no live bundle is expired.
      by_contra hlive
      have hlate := hreached hf c hc
      have hearly := hpunctual c hc ⟨token, ht, hlive⟩
      exact absurd hearly (Int.not_lt.mpr hlate)
    · obtain ⟨c, hc, hb⟩ := hreached
      exact ⟨c, by rw [← hs.current]; exact hc, hb⟩
  | exchange endpoint form =>
    rcases ans with f | response
    · exact hreached
    · trivial
  | _ => trivial

theorem meets_look {op : Op} {k : Ans op → Prog Sig α} (hop : lookingOp op)
    (hk : ∀ ans dead', dead ⊆ dead' → Tells v dead' op ans →
      Meets (punctual co) (k ans) (v, dead') Q) :
    Meets (punctual co) (.call (S := Sig) op k) (v, dead) Q := by
  constructor
  · rintro rfl
    exact hop.elim
  rintro ans ⟨v', dead'⟩ ⟨t, w, w', ⟨hs, hdead⟩, ha, hn, hs', heq⟩
  have htells := tells_of_next hs ha hn
  rw [← Hub.next_dead hn, ← heq] at htells hdead
  have hkept : Sees t w' v := by
    cases Hub.next_change hn with
    | quiet | begin => exact ⟨hs.accounts, hs.credentials, hs.writes⟩
    | claimDue | claimById => exact hs.lock _
    | _ => exact hop.elim
  obtain rfl := hkept.unique hs'
  exact hk ans dead' hdead htells

theorem meets_rotate_punctual {T : Accounts} {cs : Credentials} {scope : CredentialScope}
    {bundle : TokenBundle} {expiresAt : Time} {k : Except OAuthCredentialFailure Uuid → Prog Sig α}
    (herr : ∀ f dead', (¬ f.isTransport → cs.current scope = none) →
      Meets (punctual co) (k (.error f)) (⟨T, cs, []⟩, dead') Q)
    (hk : ∀ cid cs' dead', Meets (punctual co) (k (.ok cid)) (⟨T, cs', []⟩, dead') Q) :
    Meets (punctual co) (.call (S := Sig) (.rotate scope bundle expiresAt) k) (⟨T, cs, []⟩, dead) Q := by
  refine ⟨by rintro ⟨⟩, ?_⟩
  rintro ans ⟨v', dead'⟩ ⟨t, w, w', ⟨hs, -⟩, ⟨hreached, -⟩, hn, hs', -⟩
  cases Hub.next_change hn with
  | quiet hq =>
    obtain rfl := hs.unique hs'
    rcases ans with f | cid
    · exact herr f dead' fun hf => hs.current scope ▸ hreached hf
    · exact hq.elim
  | rotate =>
    obtain rfl := ((hs.withdraw scope).store ..).unique hs'
    exact hk _ _ _

end

/-! ## The statements of one round -/

section

variable {ε α : Type} {f : DbError → ε} {T : Accounts} {cs : Credentials} {dead : List String}
  {v : View} {id : Uuid} {r : Account} {u : ClaimedUpdate}

/-- Nothing is left to show once a statement has failed, or no write is open. -/
structure RunsOut (Q : Except ε α → Watch → Prop) : Prop where
  error : ∀ e s, Q (.error e) s
  ok : ∀ a s, s.1.writes = [] → Q (.ok a) s

theorem updateTx_punctual {Q : Except ε Nat → Watch → Prop} (herr : ∀ e s, Q (.error e) s)
    (hok : ∀ n ws dead', dead ⊆ dead' → (∀ wr ∈ ws, ∃ now, wr = .update id u now) →
      Q (.ok n) (⟨T, cs, ws⟩, dead')) :
    Meets (punctual co) (Prog.orFail f (ask (.updateTx id u))).run (⟨T, cs, []⟩, dead) Q := by
  simp only [ask, Prog.ask, meets_run_orFail]
  refine ⟨by rintro ⟨⟩, ?_⟩
  rintro ans ⟨v', dead'⟩ ⟨t, w, w', ⟨hs, hdead⟩, -, hn, hs', rfl⟩
  rcases ans with e | n
  · exact herr _ _
  rw [← Hub.next_dead hn] at hdead
  cases Hub.next_change hn with
  | quiet hq =>
    obtain rfl := hs.unique hs'
    exact hok _ _ _ hdead (by simp)
  | updateTx =>
    obtain rfl := ((hs.lock id).queue _).unique hs'
    exact hok _ _ _ hdead (by simp)

theorem commit_punctual {Q : Except ε Unit → Watch → Prop} (h : EndsUnrenewable co (v, dead))
    (hQ : RunsOut Q) : Meets (punctual co) (Prog.orFail f (ask .commit)).run (v, dead) Q := by
  simp only [ask, Prog.ask, meets_run_orFail]
  refine ⟨fun _ => h, ?_⟩
  rintro ans ⟨v', dead'⟩ ⟨t, w, w', ⟨hs, -⟩, -, hn, hs', -⟩
  rcases ans with e | ⟨⟩
  · exact hQ.error _ _
  cases Hub.next_change hn with
  | quiet hq => exact hq.elim
  | commit =>
    obtain rfl := hs.commit.unique hs'
    exact hQ.ok _ _ rfl

theorem rollback_punctual {Q : Except ε Unit → Watch → Prop} (hQ : RunsOut Q) :
    Meets (punctual co) (Prog.orFail f (ask .rollback)).run (v, dead) Q := by
  simp only [ask, Prog.ask, meets_run_orFail]
  refine ⟨by rintro ⟨⟩, ?_⟩
  rintro ans ⟨v', dead'⟩ ⟨t, w, w', ⟨hs, -⟩, -, hn, hs', -⟩
  rcases ans with e | ⟨⟩
  · exact hQ.error _ _
  cases Hub.next_change hn with
  | quiet hq => exact hq.elim
  | rollback =>
    obtain rfl := hs.release.unique hs'
    exact hQ.ok _ _ rfl

theorem commit_update_punctual {ws : List Write} {Q : Except ε Unit → Watch → Prop}
    (hr : T.lookup id = some r) (hws : ∀ wr ∈ ws, ∃ now, wr = .update id u now)
    (hu : u.Expires → Unrenewable cs dead (r.scope co)) (hQ : RunsOut Q) :
    Meets (punctual co) (Prog.orFail f (ask .commit)).run (⟨T, cs, ws⟩, dead) Q := by
  refine commit_punctual ?_ hQ
  intro id' u' now r' hm he hr'
  obtain ⟨now', heq⟩ := hws _ hm
  cases heq
  cases hr.symm.trans hr'
  exact hu he

end

/-! ## The refresh of one claimed account -/

theorem unrenewable_of_none {cs : Credentials} {dead : List String} {scope : CredentialScope}
    {c : Credential} (hc : cs.current scope = some c) (hnone : c.bundle.refreshToken = none) :
    Unrenewable cs dead scope := by
  intro c' hc' token ht
  cases hc.symm.trans hc'
  rw [hnone] at ht
  cases ht

theorem unrenewable_of_refused {cs : Credentials} {dead : List String} {scope : CredentialScope}
    {c : Credential} {token : String} (hc : cs.current scope = some c)
    (ht : c.bundle.refreshToken = some token) (hdead : ∃ token' ∈ some token, token' ∈ dead) :
    Unrenewable cs dead scope := by
  intro c' hc' token' ht'
  cases hc.symm.trans hc'
  cases ht.symm.trans ht'
  obtain ⟨_, ⟨⟩, hdead⟩ := hdead
  exact hdead

section

variable {T : Accounts} {cs : Credentials} {dead : List String} {id : Uuid} {r : Account}
  {summary : RefreshSummary} {Q : Except OauthError RefreshSummary → Watch → Prop}

theorem expireClaimed_punctual (hr : T.lookup id = some r) (h : Unrenewable cs dead (r.scope co))
    (hQ : RunsOut Q) :
    Meets (punctual co) (expireClaimed id summary).run (⟨T, cs, []⟩, dead) Q := by
  unfold expireClaimed
  refine meets_run_bind.mpr (updateTx_punctual hQ.error fun n ws dead' hsub hws => ?_)
  refine meets_run_bind.mpr (commit_update_punctual hr hws (fun _ => h.mono hsub) ?_)
  exact ⟨hQ.error, fun _ _ hs => hQ.ok _ _ hs⟩

theorem leaveDue_punctual {v : View} (hQ : RunsOut Q) :
    Meets (punctual co) (leaveDue summary).run (v, dead) Q := by
  unfold leaveDue
  exact meets_run_bind.mpr (rollback_punctual ⟨hQ.error, fun _ _ hs => hQ.ok _ _ hs⟩)

theorem rotateClaimed_punctual (hr : T.lookup id = some r) {prior : TokenBundle}
    {response : TokenResponse} (hQ : RunsOut Q) :
    Meets (punctual co) (rotateClaimed co (r.toDue id) prior response summary).run
      (⟨T, cs, []⟩, dead) Q := by
  simp only [rotateClaimed, utcNow, ask, Prog.ask, meets_run_bind, meets_run_answer]
  refine meets_look trivial fun now dead₁ _ _ => ?_
  refine meets_expiresAt (by rintro ⟨⟩) (leaveDue_punctual hQ) fun secs e _ _ _ => ?_
  simp only [meets_run_bind, meets_run_orFail]
  refine meets_rotate_punctual (fun f dead₂ _ => hQ.error _ _) fun cid cs' dead₂ => ?_
  refine updateTx_punctual hQ.error fun n ws dead₃ hsub hws => ?_
  refine commit_update_punctual hr hws (by rintro ⟨⟩) ?_
  exact ⟨hQ.error, fun _ _ hs => hQ.ok _ _ hs⟩

theorem refreshPrior_punctual (hr : T.lookup id = some r) {c : Credential}
    (hc : cs.current (r.scope co) = some c) (hQ : RunsOut Q) :
    Meets (punctual co) (svc.refreshPrior lib co (r.toDue id) c.bundle summary).run (⟨T, cs, []⟩, dead)
      Q := by
  unfold refreshPrior
  split
  · rename_i hnone
    exact expireClaimed_punctual hr (unrenewable_of_none hc hnone) hQ
  · rename_i token htoken
    split
    · exact leaveDue_punctual hQ
    · simp only [ask, Prog.ask, meets_run_bind, meets_run_answer]
      refine meets_look trivial ?_
      rintro (f | response) dead' - htells
      · simp only [meets_ret, meets_run_ite]
        refine ⟨fun hg => ?_, fun _ => leaveDue_punctual hQ⟩
        refine expireClaimed_punctual hr ?_ hQ
        exact unrenewable_of_refused hc htoken (htells hg)
      · exact rotateClaimed_punctual hr hQ

theorem refreshClaimed_punctual (hr : T.lookup id = some r) (hQ : RunsOut Q) :
    Meets (punctual co) (svc.refreshClaimed lib co (r.toDue id) summary).run (⟨T, cs, []⟩, dead) Q := by
  simp only [refreshClaimed, ask, Prog.ask, meets_run_bind, meets_run_answer]
  refine meets_look trivial ?_
  rintro (f | prior) dead₁ - htells
  · simp only [meets_ret, meets_run_ite]
    refine ⟨fun hf => expireClaimed_punctual hr (htells ?_) hQ, fun _ => leaveDue_punctual hQ⟩
    exact isDead_not_transport hf
  obtain ⟨c, hc, rfl⟩ := htells
  refine meets_run_bind.mpr (meets_orPanic (fun _ => by rintro ⟨⟩) fun freshUntil _ => ?_)
  simp only [utcNow, ask, Prog.ask, meets_run_bind, meets_run_answer, meets_run_ite]
  refine meets_look trivial fun now dead₂ _ _ => ⟨fun _ => ?_, fun _ => ?_⟩
  · refine updateTx_punctual hQ.error fun n ws dead₃ _ hws => ?_
    refine commit_update_punctual hr hws (by rintro ⟨⟩) ?_
    exact ⟨hQ.error, fun _ _ hs => hQ.ok _ _ hs⟩
  · exact refreshPrior_punctual hr hc hQ

end

/-! ## The sweeps of the service -/

section

variable {T : Accounts} {v : View} {dead : List String}

theorem endsUnrenewable_nil (h : v.writes = []) : EndsUnrenewable co (v, dead) := by
  intro id u now r hm
  rw [h] at hm
  cases hm

theorem refreshDueLoop_punctual (hv : v.writes = []) {left : Nat} {summary : RefreshSummary} :
    Meets (punctual co) (svc.refreshDueLoop lib co left summary).run (v, dead) fun _ _ => True := by
  induction left generalizing v dead summary with
  | zero => trivial
  | succ left ih =>
    simp only [refreshDueLoop, begin, commit, sql, ask, Prog.ask, meets_run_bind, meets_run_orFail]
    refine meets_look trivial ?_
    rintro (e | ⟨⟩) dead₁ - -
    · trivial
    refine meets_look trivial ?_
    rintro (e | _ | d) dead₂ - htells
    · trivial
    · refine meets_run_bind.mpr (commit_punctual (endsUnrenewable_nil hv) ?_)
      exact ⟨fun _ _ => trivial, fun _ _ _ => trivial⟩
    obtain ⟨r, hr, hd⟩ := htells
    obtain ⟨T, cs, ws⟩ := v
    cases hv
    simp only [meets_ret, Except.mapError, meets_run_bind]
    rw [hd]
    exact refreshClaimed_punctual hr ⟨fun _ _ => trivial, fun summary' s hs => ih hs⟩

theorem isDue_punctual {expiresAt : Option Time} {Q : Except OauthError Bool → Watch → Prop}
    (hQ : ∀ due dead', Q (.ok due) (v, dead')) :
    Meets (punctual co) (svc.isDue expiresAt).run (v, dead) Q := by
  unfold isDue
  split
  · exact hQ _ _
  · refine meets_run_bind.mpr (meets_orPanic (fun _ => by rintro ⟨⟩) fun freshUntil _ => ?_)
    simp only [utcNow, ask, Prog.ask, meets_run_bind, meets_run_answer]
    exact meets_look trivial fun now dead' _ _ => hQ _ _

theorem status_punctual {id : Uuid} :
    Meets (punctual co) (status id).run (v, dead) fun _ _ => True := by
  simp only [status, fetchAccount, sql, ask, Prog.ask, meets_run_bind, meets_run_orFail]
  refine meets_look trivial ?_
  rintro (e | _ | row) dead' - - <;> trivial

theorem refreshNow_punctual (hv : v.writes = []) {id : Uuid} {Q : Except OauthError Unit → Watch → Prop}
    (hQ : RunsOut Q) : Meets (punctual co) (svc.refreshNow lib co id).run (v, dead) Q := by
  simp only [refreshNow, begin, commit, sql, ask, Prog.ask, meets_run_bind, meets_run_orFail]
  refine meets_look trivial ?_
  rintro (e | ⟨⟩) dead₁ - -
  · exact hQ.error _ _
  refine meets_look trivial ?_
  rintro (e | _ | d) dead₂ - htells
  · exact hQ.error _ _
  · exact commit_punctual (endsUnrenewable_nil hv) hQ
  obtain ⟨r, hr, rfl⟩ := htells
  obtain ⟨T, cs, ws⟩ := v
  cases hv
  simp only [meets_ret, Except.mapError, meets_run_bind]
  exact refreshClaimed_punctual hr ⟨hQ.error, fun _ _ hs => hQ.ok _ _ hs⟩

theorem ensureFresh_punctual (hv : v.writes = []) {id : Uuid} :
    Meets (punctual co) (svc.ensureFresh lib co id).run (v, dead) fun _ _ => True := by
  simp only [ensureFresh, fetchAccount, sql, ask, Prog.ask, meets_run_bind, meets_run_orFail]
  refine meets_look trivial ?_
  rintro (e | _ | account) dead₁ - -
  · trivial
  · trivial
  simp only [meets_ret, Except.mapError, meets_run_ite, meets_run_bind]
  refine ⟨fun _ => trivial, fun _ => isDue_punctual fun due dead₂ => ⟨fun _ => ?_, fun _ => ?_⟩⟩
  · exact refreshNow_punctual hv ⟨fun _ _ => trivial, fun _ _ _ => status_punctual⟩
  · exact status_punctual

end

/-! ## The job -/

section

open RefreshJob

variable {job : RefreshJob} {T : Accounts} {cs : Credentials} {dead : List String} {id : Uuid}
  {r : Account} {report : RefreshReport} {Q : Except DbError RefreshReport → Watch → Prop}

theorem expire_punctual (hr : T.lookup id = some r) (h : Unrenewable cs dead (r.scope co))
    (hQ : RunsOut Q) : Meets (punctual co) (expire id report).run (⟨T, cs, []⟩, dead) Q := by
  unfold expire expireAccount
  simp only [meets_run_bind]
  refine updateTx_punctual hQ.error fun n ws dead' hsub hws => ?_
  refine commit_update_punctual hr hws (fun _ => h.mono hsub) ?_
  exact ⟨hQ.error, fun _ _ hs => hQ.ok _ _ hs⟩

theorem skip_punctual {v : View} (hQ : RunsOut Q) :
    Meets (punctual co) (skip report).run (v, dead) Q := by
  unfold skip
  exact meets_run_bind.mpr (rollback_punctual ⟨hQ.error, fun _ _ hs => hQ.ok _ _ hs⟩)

theorem rotateOne_punctual (hr : T.lookup id = some r) {prior : TokenBundle} {now : Time}
    {response : TokenResponse} (hQ : RunsOut Q) :
    Meets (punctual co) (rotateOne co (r.toDue id) prior now response report).run
      (⟨T, cs, []⟩, dead) Q := by
  refine meets_run_bind.mpr ?_
  refine meets_expiresAt (by rintro ⟨⟩) (skip_punctual hQ) fun secs e _ _ _ => ?_
  simp only [ask, Prog.ask, meets_run_bind, meets_run_answer]
  refine meets_rotate_punctual (fun f dead₁ hnone => ?_) fun cid cs' dead₁ => ?_
  · simp only [meets_ret, meets_run_ite]
    refine ⟨fun _ => skip_punctual hQ, fun hf => expire_punctual hr (fun c hc => ?_) hQ⟩
    cases (hnone hf).symm.trans hc
  · refine meets_run_bind.mpr (updateTx_punctual hQ.error fun n ws dead₂ _ hws => ?_)
    refine meets_run_ite.mpr ⟨fun _ => skip_punctual hQ, fun _ => ?_⟩
    refine meets_run_bind.mpr (commit_update_punctual hr hws (by rintro ⟨⟩) ?_)
    exact ⟨hQ.error, fun _ _ hs => hQ.ok _ _ hs⟩

theorem refreshBundle_punctual (hr : T.lookup id = some r) {endpoints : ValidatedEndpoints}
    {client : OAuthClientConfig} (hQ : RunsOut Q) :
    Meets (punctual co) (refreshBundle co endpoints client (r.toDue id) report).run
      (⟨T, cs, []⟩, dead) Q := by
  simp only [refreshBundle, ask, Prog.ask, meets_run_bind, meets_run_answer]
  refine meets_look trivial ?_
  rintro (f | b) dead₁ - htells
  · simp only [meets_ret, meets_run_ite]
    exact ⟨fun _ => skip_punctual hQ, fun hf => expire_punctual hr (htells hf) hQ⟩
  obtain ⟨c, hc, rfl⟩ := htells
  simp only [meets_ret]
  split
  · rename_i hnone
    exact expire_punctual hr (unrenewable_of_none hc hnone) hQ
  · rename_i token htoken
    simp only [utcNow, ask, Prog.ask, meets_run_bind, meets_run_answer]
    refine meets_look trivial fun now dead₂ _ _ => meets_look trivial ?_
    rintro (f | response) dead₃ - htells
    · simp only [meets_ret, meets_run_ite]
      refine ⟨fun hg => ?_, fun _ => skip_punctual hQ⟩
      exact expire_punctual hr (unrenewable_of_refused hc htoken (htells hg)) hQ
    · exact rotateOne_punctual hr hQ

theorem refreshOne_punctual (hr : T.lookup id = some r) (hQ : RunsOut Q) :
    Meets (punctual co) (job.refreshOne lib co (r.toDue id) report).run (⟨T, cs, []⟩, dead) Q := by
  unfold refreshOne
  split
  · exact skip_punctual hQ
  · split
    · exact skip_punctual hQ
    · exact refreshBundle_punctual hr hQ

theorem refreshLoop_punctual {v : View} (hv : v.writes = []) {left : Nat} {attempted : List Uuid} :
    Meets (punctual co) (job.refreshLoop lib co left attempted report).run (v, dead)
      fun _ _ => True := by
  induction left generalizing v dead attempted report with
  | zero => trivial
  | succ left ih =>
    simp only [refreshLoop, RefreshJob.sql, ask, Prog.ask, meets_run_bind, meets_run_orFail]
    refine meets_look trivial ?_
    rintro (e | ⟨⟩) dead₁ - -
    · trivial
    refine meets_look trivial ?_
    rintro (e | _ | d) dead₂ - htells
    · trivial
    · exact meets_run_bind.mpr (rollback_punctual ⟨fun _ _ => trivial, fun _ _ _ => trivial⟩)
    obtain ⟨r, hr, hd⟩ := htells
    obtain ⟨T, cs, ws⟩ := v
    cases hv
    simp only [meets_ret, Except.mapError, meets_run_bind]
    rw [hd]
    exact refreshOne_punctual hr ⟨fun _ _ => trivial, fun report' s hs => ih hs⟩

end

/-! ## Every sweep -/

theorem refreshCall_punctual {c : Call} (hc : RefreshCall co c) {v : View} {dead : List String}
    (hv : v.writes = []) : Meets (punctual co) (prog lib svc c) (v, dead) fun _ _ => True := by
  cases c with
  | refreshDue companyId =>
    cases hc
    exact refreshDueLoop_punctual hv
  | ensureFresh companyId id =>
    cases hc
    exact ensureFresh_punctual hv
  | refreshOauthCredentials job companyId =>
    cases hc
    exact refreshLoop_punctual hv
  | _ => exact hc.elim

/-- With one call at a time, no commit of a refresh in time ends an account that can be renewed. -/
theorem punctual_solo : Solo (system lib svc) (RefreshCall co) (fun _ => True) inTime (punctual co)
    Watches (Rest fun _ _ => True) where
  call := by
    intro t c w hc hw
    refine ⟨(⟨w.accounts, w.credentials, []⟩, w.dead), ⟨⟨rfl, rfl, fun u => ?_⟩, List.Subset.refl _⟩, ?_⟩
    · rw [hw.writes, ite_self]
    · exact (refreshCall_punctual hc rfl).mono fun _ s _ w' hw' => hw'.1.rest trivial
  op := by
    intro t op ans w w' s h ha hn
    obtain ⟨v', hs⟩ := h.1.next hn
    exact ⟨(v', w'.dead), ⟨t, w, w', h, ha, hn, hs, rfl⟩, hs, List.Subset.refl _⟩
  death _ h _ := h.1.rest trivial
  env := by
    intro t e w w' s hw h
    refine ⟨h.1.env hw, List.Subset.trans h.2 ?_⟩
    cases e with
    | tick clock =>
      simp only [system, Hub.env, Option.ite_none_right_eq_some, Option.some.injEq] at hw
      obtain ⟨-, rfl⟩ := hw
      exact List.Subset.refl _
    | kill token =>
      cases hw
      exact List.subset_cons_self _ _
  calm hw h := h.env hw

theorem Hub.foldl_ended {ws : List Write} {w : Hub} {id : Uuid} {r r' : Account}
    (hr : w.accounts.lookup id = some r) (hs : r.status ≠ .expired)
    (hr' : (ws.foldl apply w).accounts.lookup id = some r') (he : r'.status = .expired) :
    ∃ u now, .update id u now ∈ ws ∧ u.Expires := by
  by_contra hno
  push Not at hno
  refine foldl_rows (P := fun r => r.status ≠ .expired) ?_ ?_ ?_ hr' he
  · intro r₀ hr₀
    cases hr.symm.trans hr₀
    exact hs
  · rintro row - - ⟨⟩
  · intro u now r₀ hm hs₀
    rwa [u.set_status, if_neg (hno u now hm)]

variable {w₀ : Hub} {cfg cfg' : Config (system lib svc)}

theorem commit_of_expired {l : Label (system lib svc)} (hs : Step (system lib svc) cfg l cfg') {id : Uuid}
    {r r' : Account} (hrow : cfg.world.accounts.lookup id = some r) (ha : r.status ≠ .expired)
    (hrow' : cfg'.world.accounts.lookup id = some r') (he : r'.status = .expired) :
    ∃ t u now, l = .op t .commit (.ok ()) ∧ .update id u now ∈ (Hub.txs cfg.world).writes t ∧
      u.Expires := by
  have hsame : cfg'.world.accounts.lookup id ≠ cfg.world.accounts.lookup id := by
    intro heq
    rw [hrow', hrow] at heq
    cases heq
    exact ha he
  by_cases hl : ∃ t op ans, l = .op t op ans
  · obtain ⟨t, op, ans, rfl⟩ := hl
    have hc := step_change hs
    generalize hw' : cfg'.world = w' at hc hrow' hsame
    cases hc with
    | commit =>
      obtain ⟨u, now, hm, hu⟩ := Hub.foldl_ended hrow ha hrow' he
      exact ⟨t, u, now, rfl, hm, hu⟩
    | @update x u r₀ hrow₀ hfree =>
      simp only [Hub.setStatus, Table.lookup_insert_ite] at hrow' hsame
      split at hrow'
      · cases hrow'
        cases u <;> cases he
      · simp [*] at hsame
    | _ => exact absurd rfl hsame
  · push Not at hl
    rw [(step_beside hs hl).accounts] at hsame
    exact absurd rfl hsame

/-- **In time.** One refresh at a time, with statements that can fail and calls that can die. Where every
bundle that can be renewed is read before it expires, an account ends only if no refresh token of its
current bundle is taken any more. -/
theorem in_time_ends_unrenewable (h₀ : w₀.txs = .empty)
    (hr : Reach (system lib svc) (· = w₀) (OneAtATime (RefreshCall co) (fun _ => True) inTime) cfg)
    {l : Label (system lib svc)} (hs : Step (system lib svc) cfg l cfg') {id : Uuid} {r r' : Account}
    (hrow : cfg.world.accounts.lookup id = some r) (ha : r.status = .active)
    (hrow' : cfg'.world.accounts.lookup id = some r') (he : r'.status = .expired) :
    ∀ c ∈ Hub.current cfg.world (r.scope co), ¬ Hub.Renews cfg.world c.bundle := by
  have hinit : ∀ w, w = w₀ → Rest (fun _ _ => True) w := by
    rintro w rfl
    exact ⟨trivial, fun u => by rw [h₀]; rfl⟩
  obtain ⟨t, u, now, rfl, hm, hu⟩ := commit_of_expired hs hrow (by rw [ha]; rintro ⟨⟩) hrow' he
  obtain ⟨c, k, hrun⟩ : ∃ c k, cfg.threads t = .running c (.call (S := Sig) .commit k) := by
    cases hs with
    | op ht _ => exact ⟨_, _, ht⟩
  obtain ⟨-, s, ⟨hsees, hdead⟩, hmeets⟩ := (punctual_solo.solos.here_of_reach hinit hr).running hrun
  rw [hsees.writes_self] at hm
  rw [hsees.accounts] at hrow
  rintro c hc ⟨token, ht, hlive⟩
  rw [hsees.current] at hc
  exact hlive (hdead (hmeets.1 rfl id u now r hm hu hrow c hc token ht))

/-! ## Two sweeps of the mailbox

The window is 600 seconds, and the sweeps come every 900 seconds.
-/

instance (w : Hub) (b : TokenBundle) : Decidable (w.Renews b) :=
  inferInstanceAs (Decidable (∃ token ∈ b.refreshToken, token ∉ w.dead))

instance (w : Hub) : (op : Op) → (ans : Ans op) → Decidable (Reached w op ans)
  | .readToken scope, .ok b => inferInstanceAs (Decidable (∃ c ∈ w.current scope, c.bundle = b))
  | .readToken scope, .error f =>
    inferInstanceAs (Decidable (¬ f.isTransport → ∀ c ∈ w.current scope, c.expiresAt ≤ w.clock))
  | .rotate scope .., .error f =>
    inferInstanceAs (Decidable (¬ f.isTransport → w.current scope = none))
  | .exchange _ form, .error f =>
    inferInstanceAs (Decidable (f.isInvalidGrant → ∃ token ∈ form.refreshToken, token ∈ w.dead))
  | .rotate .., .ok _ | .exchange .., .ok _ | .utcNow, _ | .newUuid, _ | .randomBytes _, _ | .panic, _
  | .fetchAccount _, _ | .fetchVerifier _, _ | .begin, _ | .deleteSnapshot .., _ | .deleteRow _, _
  | .insertAccount _, _ | .claimDue .., _ | .claimById _, _ | .updateTx .., _ | .commit, _
  | .rollback, _ | .drop, _ | .update .., _ | .fetchIdentity .., _ | .issue .., _
  | .revoke _, _ => .isTrue trivial

instance (w : Hub) : (op : Op) → Decidable (Punctual w op)
  | .readToken scope => inferInstanceAs
    (Decidable (∀ c ∈ w.current scope, w.Renews c.bundle → w.clock < c.expiresAt))
  | .utcNow | .newUuid | .randomBytes _ | .panic | .fetchAccount _ | .fetchVerifier _ | .begin
  | .deleteSnapshot .. | .deleteRow _ | .insertAccount _ | .claimDue .. | .claimById _ | .updateTx ..
  | .commit | .rollback | .drop | .update .. | .exchange .. | .fetchIdentity .. | .issue ..
  | .rotate .. | .revoke _ => .isTrue trivial

instance (w : Hub) (op : Sig.Op) (ans : Sig.Ans op) : Decidable (inTime w op ans) :=
  inferInstanceAs (Decidable (_ ∧ _))

instance : DecidablePred (RefreshCall co)
  | .refreshDue companyId | .ensureFresh companyId _ | .refreshOauthCredentials _ companyId =>
    inferInstanceAs (Decidable (companyId = co))
  | .authorize _ | .complete .. | .disconnect .. | .status _ | .refreshForCompanies .. => .isFalse id

/-- No statement fails, the store keeps its port, and the store and the provider are there. -/
def reachedAnswers (w : Hub) (op : Sig.Op) (ans : Sig.Ans op) : Prop :=
  Answered op ans ∧ w.StorePort op ans ∧ Reached w op ans

instance (w : Hub) (op : Sig.Op) (ans : Sig.Ans op) : Decidable (reachedAnswers w op ans) :=
  inferInstanceAs (Decidable (_ ∧ _ ∧ _))

def storedAccount : Account :=
  ⟨"gmail", "user@example.com", .active, "", none, some 700000000, none⟩

def storedCredential : Credential :=
  ⟨mailScope, purposeOauthToken, { mailBundle with expiresAt := 700000000 }, 700000000, true⟩

/-- The row and the bundle expire in 700 seconds. -/
def storedHub : Hub :=
  { mailHub with
    accounts := AList.singleton 1 storedAccount
    credentials := [storedCredential] }

/-- The first sweep comes before the window of the account, and the second one after its expiry. -/
def gapSweeps : List (Label (system mailCrates mailService)) :=
  [.start 0 (.refreshOauthCredentials mailJob 9), .op 0 .begin (.ok ()),
    .op 0 (.claimDue 600 []) (.ok none), .op 0 .rollback (.ok ()), .finish 0, .env (.tick 900000000),
    .start 1 (.refreshOauthCredentials mailJob 9), .op 1 .begin (.ok ()),
    .op 1 (.claimDue 600 []) (.ok (some dueAccount)),
    .op 1 (.readToken mailScope) (.error ⟨OAuthCredentialFailure.codeExpired, ""⟩),
    .op 1 (.updateTx 1 .expire) (.ok (1 : Nat))]

/-- The provider gives up the refresh token, and a sweep in time finds that out. -/
def killedSweep : List (Label (system mailCrates mailService)) :=
  [.env (.kill "refresh-1"), .env (.tick 300000000),
    .start 1 (.refreshOauthCredentials mailJob 9), .op 1 .begin (.ok ()),
    .op 1 (.claimDue 600 []) (.ok (some dueAccount)),
    .op 1 (.readToken mailScope) (.ok { mailBundle with expiresAt := 700000000 }),
    .op 1 .utcNow (300000000 : Int),
    .op 1 (.exchange gmailToken mailRefreshForm) (.error ⟨.invalidGrant, ""⟩),
    .op 1 (.updateTx 1 .expire) (.ok (1 : Nat))]

/-- The commit of thread 1 ends the account. -/
def endsMailbox (cfg : Config (system mailCrates mailService)) : Bool :=
  decide ((Hub.accounts cfg.world).lookup 1 = some storedAccount) &&
    decide (Hub.current cfg.world mailScope = some storedCredential) &&
    (fire cfg (.op 1 .commit (.ok ()))).any fun cfg' => Hub.status? cfg'.world 1 == some .expired

theorem endsMailbox_step {cfg : Config (system mailCrates mailService)} (h : endsMailbox cfg = true) :
    cfg.world.accounts.lookup 1 = some storedAccount ∧
      Hub.current cfg.world mailScope = some storedCredential ∧
      ∃ cfg' r', Step (system mailCrates mailService) cfg (.op 1 .commit (.ok ())) cfg' ∧
        cfg'.world.accounts.lookup 1 = some r' ∧ r'.status = .expired := by
  simp only [endsMailbox, Bool.and_eq_true, decide_eq_true_eq, Option.any_eq_true, beq_iff_eq] at h
  obtain ⟨⟨hrow, hc⟩, cfg', hfire, hend⟩ := h
  obtain ⟨r', hrow', he⟩ := Hub.status?_eq_some.mp hend
  exact ⟨hrow, hc, cfg', r', step_of_fire hfire, hrow', he⟩

theorem killedSweep_runs : (replay (OneOf 2 (RefreshCall 9) inTime) (.init storedHub)
    killedSweep).any endsMailbox = true := by
  decide +kernel

theorem in_time_ends_unrenewable_mailbox : ∃ cfg : Config (system mailCrates mailService),
    cfg.hist = killedSweep.reverse ∧ endsMailbox cfg ∧ ¬ Hub.Renews cfg.world storedCredential.bundle := by
  obtain ⟨cfg, hr, hh, hend⟩ : ∃ cfg, Reach (system mailCrates mailService) (· = storedHub)
      (OneOf 2 (RefreshCall 9) inTime) cfg ∧ cfg.hist = killedSweep.reverse ∧
        endsMailbox cfg = true := by
    refine Reach.exists_of_replay ?_ killedSweep_runs
    rfl
  obtain ⟨hrow, hc, cfg', r', hs, hrow', he⟩ := endsMailbox_step hend
  exact ⟨cfg, hh, hend, in_time_ends_unrenewable rfl hr.one_at_a_time.1 hs hrow rfl hrow' he
    storedCredential hc⟩

theorem gapSweeps_runs : (replay (OneOf 2 (RefreshCall 9) reachedAnswers) (.init storedHub)
    gapSweeps).any (fun cfg => endsMailbox cfg && decide (Hub.dead cfg.world = [])) = true := by
  decide +kernel

/-! With sweeps every 900 seconds and a window of 600 seconds, an account ends whose refresh token is
still taken. No statement fails, and the store and the provider are there. -/

theorem schedule_gap_ends_renewable :
    ∃ (cfg cfg' : Config (system mailCrates mailService)) (r' : Account),
      Reach (system mailCrates mailService) (· = storedHub)
        (OneAtATime (RefreshCall 9) (fun _ => False) reachedAnswers) cfg ∧
      cfg.hist = gapSweeps.reverse ∧
      Step (system mailCrates mailService) cfg (.op 1 .commit (.ok ())) cfg' ∧
      cfg.world.accounts.lookup 1 = some storedAccount ∧ storedAccount.status = .active ∧
      cfg'.world.accounts.lookup 1 = some r' ∧ r'.status = .expired ∧
      Hub.current cfg.world (storedAccount.scope 9) = some storedCredential ∧
      storedAccount.expiresAt = some storedCredential.bundle.expiresAt ∧
      Hub.Renews cfg.world storedCredential.bundle := by
  obtain ⟨cfg, hr, hh, hend⟩ : ∃ cfg, Reach (system mailCrates mailService) (· = storedHub)
      (OneOf 2 (RefreshCall 9) reachedAnswers) cfg ∧ cfg.hist = gapSweeps.reverse ∧
        (endsMailbox cfg && decide (Hub.dead cfg.world = [])) = true := by
    refine Reach.exists_of_replay ?_ gapSweeps_runs
    rfl
  obtain ⟨hend, hdead⟩ := Bool.and_eq_true_iff.mp hend
  obtain ⟨hrow, hc, cfg', r', hs, hrow', he⟩ := endsMailbox_step hend
  refine ⟨cfg, cfg', r', hr.one_at_a_time.1, hh, hs, hrow, rfl, hrow', he, hc, rfl, "refresh-1", rfl, ?_⟩
  rw [of_decide_eq_true hdead]
  exact List.not_mem_nil

end BackboneIntegrations.OAuth
