import BackboneIntegrations.OAuth.Disconnect

/-!
# An account under another company

The company is not on the row. A call under a company for which the store holds nothing is told so,
and it takes that for the end of the account.
-/

open Interleave

namespace BackboneIntegrations.OAuth

open IntegrationsOauthService

variable {lib : Crates} {svc : IntegrationsOauthService} {w₀ : Hub}
  {ok : Config (system lib svc) → Label (system lib svc) → Prop} {cfg cfg' : Config (system lib svc)}
  {t : Tid} {co id : Uuid}

/-! ## What the two calls do -/

/-- The call has read a bundle. -/
def HasRead (h : Past) : Prop := ∃ scope b, (⟨.readToken scope, .ok b⟩ : Event Sig) ∈ h

/-- The call was refused a bundle, with a code that ends the account. -/
def ReadDead (h : Past) : Prop :=
  ∃ scope f, isDead f ∧ (⟨.readToken scope, .error f⟩ : Event Sig) ∈ h

/-- A statement of the call failed. -/
def Failed (h : Past) : Prop := ∃ ev ∈ h, Answered ev.op ev.ans = false

/-- The call has not asked the store yet. -/
def Unasked (h : Past) : Prop := ∀ scope ans, (⟨.readToken scope, ans⟩ : Event Sig) ∉ h

theorem HasRead.cons {h : Past} (hr : HasRead h) (ev : Event Sig) : HasRead (ev :: h) := by
  obtain ⟨scope, b, hm⟩ := hr
  exact ⟨scope, b, List.mem_cons_of_mem _ hm⟩

theorem Unasked.cons {h : Past} (hu : Unasked h) {ev : Event Sig}
    (he : ∀ scope, ev.op ≠ .readToken scope) : Unasked (ev :: h) := by
  intro scope ans hm
  rcases List.mem_cons.mp hm with rfl | hm
  · exact he scope rfl
  · exact hu scope ans hm

theorem Unasked.not_dead {h : Past} (hu : Unasked h) : ¬ ReadDead h := by
  rintro ⟨scope, f, -, hm⟩
  exact hu scope _ hm

/-- A call of `ensure_fresh` that reads no bundle writes at most the end of the account, and that only
when the store told it so. -/
def freshMust (companyId accountId : Uuid) (h : Past) (op : Op) : Prop :=
  HasRead h ∨ match op with
  | .readToken scope => ∃ d, openClaim h = some d ∧ scope = d.scope companyId ∧
      ⟨.claimById accountId, .ok (some d)⟩ ∈ h
  | .updateTx id u => ∃ d, openClaim h = some d ∧ id = d.id ∧ u = .expireActive ∧ ReadDead h ∧
      ⟨.claimById accountId, .ok (some d)⟩ ∈ h
  | .deleteRow _ | .insertAccount _ | .update .. | .revoke _ => False
  | _ => True

/-- Such a call ends the account when the store told it so. -/
def freshLeave (accountId : Uuid) (h : Past) : Prop :=
  HasRead h ∨ Failed h ∨ (ReadDead h → ∃ d n, ⟨.claimById accountId, .ok (some d)⟩ ∈ h ∧
    [⟨.commit, .ok ()⟩, ⟨.updateTx d.id .expireActive, .ok n⟩] <:+: h)

theorem freshLeave.cons {accountId : Uuid} {h : Past} (hl : freshLeave accountId h) {ev : Event Sig}
    (he : ∀ scope, ev.op ≠ .readToken scope) : freshLeave accountId (ev :: h) := by
  rcases hl with hr | ⟨e, hm, hf⟩ | hd
  · exact .inl (hr.cons ev)
  · exact .inr (.inl ⟨e, List.mem_cons_of_mem _ hm, hf⟩)
  · refine .inr (.inr ?_)
    rintro ⟨scope, f, hdead, hm⟩
    rcases List.mem_cons.mp hm with rfl | hm
    · exact absurd rfl (he scope)
    · obtain ⟨d, n, hclaim, hin⟩ := hd ⟨scope, f, hdead, hm⟩
      exact ⟨d, n, List.mem_cons_of_mem _ hclaim, hin.trans (List.suffix_cons ..).isInfix⟩

theorem Unasked.leave {accountId : Uuid} {h : Past} (hu : Unasked h) : freshLeave accountId h :=
  .inr (.inr fun hd => absurd hd hu.not_dead)

theorem freshLeave_failed {accountId : Uuid} {h : Past} {ev : Event Sig}
    (hf : Answered ev.op ev.ans = false) : freshLeave accountId (ev :: h) :=
  .inr (.inl ⟨ev, List.mem_cons_self, hf⟩)

section

variable {accountId : Uuid} {h : Past}

theorem HasRead.meets {α : Type} {p : Prog Sig α} (hr : HasRead h) :
    Meets (.ofPast (freshMust co accountId)) p h fun _ h' => HasRead h' := by
  refine Meets.of_stable (fun _ _ hr => Or.inl hr) ?_ hr
  rintro h op ans h' hr rfl
  exact hr.cons _

theorem status_fresh (hl : freshLeave accountId h) :
    Meets (.ofPast (freshMust co accountId)) (status accountId).run h fun _ h' =>
      freshLeave accountId h' := by
  simp only [status, fetchAccount, sql, ask, Prog.ask, meets_run_bind, meets_run_orFail, meets_call,
    meets_ret, ofPast_must, ofPast_may, forall_eq]
  refine ⟨.inr trivial, ?_⟩
  rintro (err | _ | account)
  all_goals exact hl.cons (by simp)

theorem expireClaimed_fresh {d : DueAccount} (hd : openClaim h = some d) (hdead : ReadDead h)
    (hclaim : (⟨.claimById accountId, .ok (some d)⟩ : Event Sig) ∈ h) {summary : RefreshSummary} :
    Meets (.ofPast (freshMust co accountId)) (expireClaimed d.id summary).run h fun _ h' =>
      freshLeave accountId h' := by
  simp only [expireClaimed, updateTx, commit, sql, ask, Prog.ask, meets_run_bind, meets_run_orFail,
    meets_call, meets_ret, ofPast_must, ofPast_may, forall_eq]
  refine ⟨.inr ⟨d, hd, rfl, rfl, hdead, hclaim⟩, ?_⟩
  rintro (err | n)
  · exact freshLeave_failed rfl
  refine ⟨.inr trivial, ?_⟩
  rintro (err | ⟨⟩)
  · exact freshLeave_failed rfl
  · refine .inr (.inr fun _ => ⟨d, n, by simp [hclaim], [], h, rfl⟩)

theorem refreshClaimed_fresh {d : DueAccount} (hd : openClaim h = some d) (hu : Unasked h)
    (hclaim : ⟨.claimById accountId, .ok (some d)⟩ ∈ h) {summary : RefreshSummary} :
    Meets (.ofPast (freshMust co accountId)) (svc.refreshClaimed lib co d summary).run h fun _ h' =>
      freshLeave accountId h' := by
  simp only [refreshClaimed, ask, Prog.ask, meets_run_bind, meets_run_answer, meets_call, meets_ret,
    ofPast_must, ofPast_may, forall_eq]
  refine ⟨.inr ⟨d, hd, rfl, hclaim⟩, ?_⟩
  rintro (f | prior)
  · simp only [meets_run_ite]
    refine ⟨fun hf => ?_, fun hf => ?_⟩
    · refine expireClaimed_fresh ?_ ⟨_, f, hf, List.mem_cons_self⟩ (List.mem_cons_of_mem _ hclaim)
      exact hd
    · have hnot : ¬ ReadDead (⟨.readToken (d.scope co), .error f⟩ :: h) := by
        rintro ⟨scope, f', hdead, hm⟩
        rcases List.mem_cons.mp hm with heq | hm
        · cases heq
          exact hf hdead
        · exact hu scope _ hm
      have hleave : freshLeave accountId (⟨.readToken (d.scope co), .error f⟩ :: h) :=
        .inr (.inr fun hd => absurd hd hnot)
      simp only [leaveDue, rollback, sql, ask, Prog.ask, meets_run_bind, meets_run_orFail, meets_call,
        meets_ret, ofPast_must, ofPast_may, forall_eq]
      refine ⟨.inr trivial, ?_⟩
      rintro (err | ⟨⟩)
      all_goals exact hleave.cons (by simp)
  · have hread : HasRead (⟨.readToken (d.scope co), .ok prior⟩ :: h) := ⟨_, prior, List.mem_cons_self⟩
    exact hread.meets.mono fun _ _ h => .inl h

theorem refreshNow_fresh (hu : Unasked h) :
    Meets (.ofPast (freshMust co accountId)) (svc.refreshNow lib co accountId).run h fun _ h' =>
      freshLeave accountId h' := by
  simp only [refreshNow, begin, commit, sql, ask, Prog.ask, meets_run_bind, meets_run_orFail,
    meets_call, meets_ret, ofPast_must, ofPast_may, forall_eq]
  refine ⟨.inr trivial, ?_⟩
  rintro (err | ⟨⟩)
  · exact freshLeave_failed rfl
  refine ⟨.inr trivial, ?_⟩
  rintro (err | _ | d)
  · exact freshLeave_failed rfl
  · simp only [Except.mapError, meets_run_orFail, meets_call, meets_ret, ofPast_must, ofPast_may,
      forall_eq]
    refine ⟨.inr trivial, fun ans => Unasked.leave ?_⟩
    exact ((hu.cons (by simp)).cons (by simp)).cons (by simp)
  · simp only [Except.mapError, meets_run_bind]
    refine (refreshClaimed_fresh rfl ?_ List.mem_cons_self).mono fun r h' hl => ?_
    · exact (hu.cons (by simp)).cons (by simp)
    · cases r <;> exact hl

theorem isDue_fresh (hu : Unasked h) {expiresAt : Option Time} :
    Meets (.ofPast (freshMust co accountId)) (svc.isDue expiresAt).run h fun _ h' => Unasked h' := by
  unfold isDue
  split
  · exact hu
  simp only [meets_run_bind]
  refine meets_orPanic (fun _ => .inr trivial) fun freshUntil _ => ?_
  simp only [utcNow, ask, Prog.ask, meets_run_answer, meets_call, meets_ret, meets_run_pure,
    ofPast_must, ofPast_may, forall_eq]
  exact ⟨.inr trivial, fun now => hu.cons (by simp)⟩

theorem ensureFresh_fresh :
    Meets (.ofPast (freshMust co accountId)) (svc.ensureFresh lib co accountId).run [] fun _ h =>
      freshLeave accountId h := by
  have unasked : ∀ ans, Unasked [⟨.fetchAccount accountId, ans⟩] := by
    intro ans scope ans' hm
    simp at hm
  simp only [ensureFresh, fetchAccount, sql, ask, Prog.ask, meets_run_bind, meets_run_orFail,
    meets_call, meets_ret, ofPast_must, ofPast_may, forall_eq]
  refine ⟨.inr trivial, ?_⟩
  rintro (err | _ | account)
  · exact freshLeave_failed rfl
  · exact (unasked _).leave
  simp only [Except.mapError, meets_run_ite, meets_run_bind]
  refine ⟨fun _ => (unasked _).leave, fun _ => (isDue_fresh (unasked _)).mono ?_⟩
  rintro (err | due) h' hu
  · exact hu.leave
  refine ⟨fun _ => (refreshNow_fresh hu).mono ?_, fun _ => status_fresh hu.leave⟩
  rintro (err | ⟨⟩) h'' hl
  · exact hl
  · exact status_fresh hl

end

/-- What a disconnect that fails has seen. -/
def disconnectFailed (h : Past) : Except OauthError Unit → Prop
  | .ok () => True
  | .error _ => Failed h ∨ ∀ scope ans, (⟨.revoke scope, ans⟩ : Event Sig) ∈ h → ¬ Withdrawn ans

theorem disconnect_refused (co id : Uuid) :
    Meets (.ofPast fun _ _ => True) (disconnect co id).run [] fun r h => disconnectFailed h r := by
  simp only [disconnect, fetchAccount, sql, ask, Prog.ask, meets_run_bind, meets_run_orFail,
    meets_call, meets_ret, ofPast_must, ofPast_may, forall_eq, true_and]
  rintro (err | _ | account)
  · exact .inl ⟨_, List.mem_cons_self, rfl⟩
  · exact .inr fun scope ans hm => by simp at hm
  simp only [Except.mapError, meets_run_ite, meets_run_bind, meets_run_answer, meets_run_pure,
    meets_call, meets_ret, ofPast_must, ofPast_may, forall_eq, true_and]
  refine ⟨fun _ => trivial, fun _ ans => ?_⟩
  have update : ∀ h : Past, Meets (.ofPast fun _ _ => True)
      (do let _ ← sql (ask (.update id .revoke)) : Flow OauthError Unit).run h
      fun r h' => disconnectFailed h' r := by
    intro h
    simp only [sql, ask, Prog.ask, meets_run_bind, meets_run_orFail, meets_call, meets_ret,
      ofPast_must, ofPast_may, forall_eq, true_and]
    rintro (err | n)
    · exact .inl ⟨_, List.mem_cons_self, rfl⟩
    · trivial
  rcases ans with f | ⟨⟩
  · simp only [meets_run_ite, meets_run_bind]
    refine ⟨fun _ => meets_run_bind.mp (update _), fun hf => .inr fun scope ans hm => ?_⟩
    rcases List.mem_cons.mp hm with heq | hm
    · cases heq
      exact hf
    · simp at hm
  · exact update _

/-- The script of the two calls. -/
def foreignScript (lib : Crates) (svc : IntegrationsOauthService) : Script (system lib svc) where
  must
    | .ensureFresh companyId accountId => freshMust companyId accountId
    | _ => fun _ _ => True
  leave
    | .ensureFresh _ accountId => fun _ h => freshLeave accountId h
    | .disconnect .. => fun r h => disconnectFailed h r
    | _ => fun _ _ => True

theorem foreignScript_holds (lib : Crates) (svc : IntegrationsOauthService) :
    (foreignScript lib svc).Holds := by
  intro c
  cases c <;> simp only [system, prog]
  case disconnect companyId accountId => exact disconnect_refused companyId accountId
  case ensureFresh companyId accountId => exact ensureFresh_fresh
  all_goals exact Meets.trivial fun _ _ => trivial

/-! ## The claimed row -/

theorem claimed_key (h₀ : w₀.Idle) (hr : Reach (system lib svc) (· = w₀) ok cfg) {d : DueAccount}
    (hd : cfg.Did t (.claimById id) (.ok (some d))) :
    d.id = id ∧ Entered w₀ cfg id ∧ ∀ r, cfg.world.accounts.lookup id = some r →
      r.key = (d.provider, d.accountRef) := by
  induction hr with
  | init _ => cases hd
  | @step cfg l cfg' hreach _ hs ih =>
    rcases hs.did.mp hd with rfl | hd
    · have hc := step_change hs
      generalize hw' : cfg'.world = w' at hc
      cases hc with
      | quiet hq => exact hq.elim
      | @claimById _ _ r₀ hrow heq hactive hfree =>
        have he : Entered w₀ cfg id :=
          entered_of_status h₀ hreach (by rw [Hub.status?, hrow]; rintro ⟨⟩)
        refine ⟨by rw [heq]; rfl, he.step hs, fun r hr => ?_⟩
        rw [Hub.lock_accounts, hrow] at hr
        cases hr
        rw [heq]
        rfl
    · obtain ⟨hid, he, hkey⟩ := ih hd
      refine ⟨hid, he.step hs, fun r hrow => ?_⟩
      obtain ⟨r₀, hb, hk⟩ := he.row_before h₀ hreach hs hrow
      rw [hk, hkey r₀ hb]

theorem scope_of_claimed {r : Account} {d : DueAccount} (h : r.key = (d.provider, d.accountRef)) :
    r.scope co = d.scope co := by
  obtain ⟨hp, ha⟩ := Prod.mk.inj h
  rw [Account.scope, DueAccount.scope, hp, ha]

theorem queued_of_last (h₀ : w₀.Idle) (hr : Reach (system lib svc) (· = w₀) ok cfg) {c : Call}
    {p : Prog Sig (Res c)} (hrun : cfg.threads t = .running c p) {u : ClaimedUpdate} {n : Nat} {h : Past}
    (hev : cfg.events t = ⟨.updateTx id u, .ok n⟩ :: h) :
    ∃ now, .update id u now ∈ (Hub.txs cfg.world).writes t := by
  induction hr generalizing c p with
  | init _ => cases hrun
  | @step cfg l cfg' hreach _ hs ih =>
    have hlocked := locked_of_reach h₀ hreach
    -- another thread that ends leaves the transaction of this one open
    have leave : ∀ {u' th} {l : Label (system lib svc)}, (∀ c p, th ≠ .running c p) → l.event? t = none →
        (cfg.put (Hub.release cfg.world u') u' th l).threads t = .running c p →
        (cfg.put (Hub.release cfg.world u') u' th l).events t = ⟨.updateTx id u, .ok n⟩ :: h →
        ∃ now, .update id u now ∈ (Hub.txs (Hub.release cfg.world u')).writes t := by
      intro u' th l hth hl hrun hev
      by_cases hu : t = u'
      · subst hu
        rw [Config.put_threads_self] at hrun
        exact absurd hrun (hth c p)
      · rw [cfg.put_threads_ne _ _ _ hu] at hrun
        rw [Config.events_put_ne hl] at hev
        obtain ⟨now, hm⟩ := ih hrun hev
        exact ⟨now, by rwa [Hub.release_txs, Txs.clear_writes_ne hu]⟩
    cases hs with
    | @start u' c' ht =>
      by_cases hu : t = u'
      · subst hu
        have hnone := (script_holds lib svc).tracks hreach t
        rw [ht] at hnone
        rw [Config.events_put_ne event?_start, hnone] at hev
        cases hev
      · rw [cfg.put_threads_ne _ _ _ hu] at hrun
        exact ih hrun hev
    | @op u' c' op ans k w ht hw =>
      have hs : Step (system lib svc) cfg (.op u' op ans) _ := .op ht hw
      by_cases hu : t = u'
      · subst hu
        rw [Config.events_put_op] at hev
        cases hev
        obtain ⟨d, hclaim, rfl⟩ := update_claimed hreach hs
        obtain ⟨r, hrow, hactive⟩ := Hub.status?_eq_some.mp (hlocked.claimed ht hclaim).2
        have htarget : cfg.world.claimedTarget d.id u = some r :=
          Hub.claimedTarget_eq_some.mpr ⟨hrow, by rw [hactive]; exact u.guard_active⟩
        have hn : Hub.next t (.updateTx d.id u) (.ok n) cfg.world = some w := hw
        simp only [Hub.next, htarget, Option.ite_none_right_eq_some, Option.some.injEq] at hn
        refine ⟨Hub.began cfg.world t, ?_⟩
        rw [Config.put_world, ← hn.2, Hub.queue_txs, Txs.push_writes_self]
        simp
      · rw [cfg.put_threads_ne _ _ _ hu] at hrun
        rw [Config.events_put_ne (Config.event?_ne hu)] at hev
        obtain ⟨now, hm⟩ := ih hrun hev
        have hothers := ((step_change hs).others hu).1
        rw [Config.put_world] at hothers ⊢
        exact ⟨now, by rwa [hothers]⟩
    | finish ht => exact leave (by simp) rfl hrun hev
    | crash ht => exact leave (by simp) rfl hrun hev
    | @env e w hw =>
      obtain ⟨now, hm⟩ := ih hrun hev
      refine ⟨now, ?_⟩
      have hw' : Hub.env e cfg.world = some w := hw
      cases e with
      | tick clock =>
        simp only [Hub.env, Option.ite_none_right_eq_some, Option.some.injEq] at hw'
        rw [← hw'.2]
        exact hm
      | kill token =>
        cases hw'
        exact hm

theorem Hub.foldl_expired {ws : List Write} {w : Hub} (hne : ws ≠ [])
    (hall : ∀ wr ∈ ws, ∃ now, wr = .update id .expireActive now) {r : Account}
    (hrow : w.accounts.lookup id = some r) :
    ∃ r', (ws.foldl apply w).accounts.lookup id = some r' ∧ r'.status = .expired := by
  induction ws generalizing w r with
  | nil => exact absurd rfl hne
  | cons wr ws ih =>
    obtain ⟨⟨now, rfl⟩, hrest⟩ := List.forall_mem_cons.mp hall
    have happ : (w.apply (.update id .expireActive now)).accounts.lookup id =
        some (ClaimedUpdate.expireActive.set now r) := by
      simp [Hub.apply, hrow]
    by_cases hnil : ws = []
    · subst hnil
      exact ⟨_, happ, rfl⟩
    · exact ih hnil hrest happ

/-! ## When a foreign scope fails closed -/

/-- Statements do not fail, and the store answers as its port documents. -/
def Documented (cfg : Config (system lib svc)) : Label (system lib svc) → Prop
  | .op _ op ans => Answered op ans ∧ cfg.world.StorePort op ans
  | _ => True

/-- The store told the call on thread `t` that it holds nothing, or nothing of use. -/
def ToldGone (cfg : Config (system lib svc)) (t : Tid) : Prop :=
  (∃ scope ans, Withdrawn ans ∧ cfg.Did t (.revoke scope) ans) ∨
    ∃ scope f, isDead f ∧ cfg.Did t (.readToken scope) (.error f)

/-- A call on thread `t` for an active account under company `co`, where the store holds nothing for it.
The credential of the account is under `home`. -/
structure Abroad (tr : List (Taken (system lib svc))) (cfg : Config (system lib svc)) (t : Tid)
    (co id home : Uuid) (account : AccountRow) : Prop where
  read : cfg.Did t (.fetchAccount id) (.ok (some account))
  active : account.status = .active
  nothing : ∀ s ∈ tr, ∀ op ans, s.label = .op t op ans → ∀ r,
    (Hub.accounts s.before.world).lookup id = some r → Hub.current s.before.world (r.scope co) = none
  live : ∀ s ∈ tr, s.label = .finish t → Hub.current s.before.world (account.scope home) ≠ none

/-- The call on thread `t` leaves the account as it is, and no disconnect returns `Ok` while the credential
of the scope is live. -/
structure FailsClosed (tr : List (Taken (system lib svc))) (cfg : Config (system lib svc)) (t : Tid)
    (id : Uuid) (scope : CredentialScope) : Prop where
  kept : ∀ s ∈ tr, ∀ op ans, s.label = .op t op ans →
    (Hub.accounts s.after.world).lookup id = (Hub.accounts s.before.world).lookup id
  refused : ∀ co, cfg.threads t = .done (.disconnect co id) (.ok ()) → ∀ s ∈ tr, s.label = .finish t →
    Hub.current s.before.world scope = none

section

variable {tr : List (Taken (system lib svc))} {home : Uuid} {account : AccountRow}

theorem Run.accounts_eq (hr : Run (system lib svc) (· = w₀) ok tr cfg) {s : Taken (system lib svc)}
    (hm : s ∈ tr) {op : Op} {ans : Ans op} (hl : s.label = .op t op ans) (hset : ¬ IsSet ⟨op, ans⟩)
    (hc : op ≠ .commit) : Hub.accounts s.after.world = Hub.accounts s.before.world := by
  obtain ⟨newer, older, rfl⟩ := List.append_of_mem hm
  obtain ⟨-, -, hs⟩ := hr.split
  rw [hl] at hs
  exact (step_change hs).accounts_eq hset hc

theorem not_failed (hr : Run (system lib svc) (· = w₀) Documented tr cfg) : ¬ Failed (cfg.events t) := by
  rintro ⟨⟨op, ans⟩, hm, hf⟩
  obtain ⟨s, -, hl, -, hok, -⟩ := hr.taken_of_mem (mem_events.mp hm)
  rw [hl] at hok
  rw [hok.1] at hf
  cases hf

theorem disconnect_foreign (hr : Run (system lib svc) (· = w₀) Documented tr cfg)
    {res : Except OauthError Unit} (hdone : cfg.threads t = .done (.disconnect co id) res)
    (ha : Abroad tr cfg t co id home account) :
    FailsClosed tr cfg t id (account.scope home) ↔ ¬ ToldGone cfg t := by
  have hX := script_holds lib svc
  have hc : cfg.call? t = some (.disconnect co id) := by rw [Config.call?, hdone, Thread.call?]
  constructor
  · rintro h (⟨scope, ans, hw, hd⟩ | ⟨scope, f, -, hd⟩)
    · have hleave : disconnectFailed (cfg.events t) res := (foreignScript_holds lib svc).leave hr.reach hdone
      rcases res with e | ⟨⟩
      -- A failure is one of a statement, which the run excludes, or the store never said that the
      -- credential is gone.
      · rcases hleave with hf | hno
        · exact not_failed hr hf
        · exact hno scope ans (mem_events.mpr hd) hw
      · obtain ⟨s, hm, hl⟩ := hr.finish_of_done hdone
        exact ha.live s hm hl (h.refused co hdone s hm hl)
    · obtain ⟨pre, -, hm⟩ := hX.past hr.reach hc hd
      exact hm
  · intro hno
    have told : ∀ {account' ans}, Withdrawn ans →
        (∀ ev ∈ withdrew co id account' ans, ev ∈ cfg.events t) → False := by
      intro account' ans hw hsub
      exact hno (.inl ⟨_, ans, hw, mem_events.mp (hsub _ List.mem_cons_self)⟩)
    constructor
    · intro s hm op ans hl
      have hd : cfg.Did t op ans := by
        rw [Config.Did, hr.hist_eq, ← hl]
        exact List.mem_map_of_mem hm
      obtain ⟨pre, hpre, hmust⟩ := hX.past hr.reach hc hd
      cases op with
      | update x u =>
        obtain ⟨-, -, account', ans', hw, rfl⟩ := hmust
        exact (told hw fun _ hev => hpre.subset (List.mem_cons_of_mem _ hev)).elim
      | fetchAccount x | revoke scope => rw [Run.accounts_eq hr hm hl (fun h => h) (by simp)]
      | _ => exact hmust.elim
    · intro co' hd s _ _
      rw [hdone] at hd
      cases hd
      have hleave : disconnectLeave co id (cfg.events t) (.ok ()) := hX.leave hr.reach hdone
      -- `Ok` comes from a row that was revoked already, or from behind the withdrawal.
      exfalso
      rcases hleave with ⟨account', hrev, hev⟩ | ⟨account', ans, n, hw, hev⟩
      · have hread := mem_events.mpr ha.read
        rw [hev] at hread
        obtain rfl : account = account' := by simpa using hread
        rw [ha.active] at hrev
        cases hrev
      · exact told hw fun _ hm => by
          rw [hev]
          exact List.mem_cons_of_mem _ hm

theorem HasRead.first {h : Past} (hr : HasRead h) : ∃ pre scope b,
    (⟨.readToken scope, .ok b⟩ : Event Sig) :: pre <:+ h ∧ ¬ HasRead pre := by
  induction h with
  | nil =>
    obtain ⟨scope, b, hm⟩ := hr
    cases hm
  | cons ev h ih =>
    by_cases hh : HasRead h
    · obtain ⟨pre, scope, b, hp, hno⟩ := ih hh
      exact ⟨pre, scope, b, hp.trans (List.suffix_cons ..), hno⟩
    · obtain ⟨scope, b, hm⟩ := hr
      rcases List.mem_cons.mp hm with rfl | hm
      · exact ⟨h, scope, b, List.suffix_rfl, hh⟩
      · exact absurd ⟨scope, b, hm⟩ hh

theorem not_read (h₀ : w₀.Idle) (hr : Run (system lib svc) (· = w₀) Documented tr cfg)
    (hc : cfg.call? t = some (.ensureFresh co id)) (ha : Abroad tr cfg t co id home account) :
    ¬ HasRead (cfg.events t) := by
  intro hread
  obtain ⟨pre, scope, b, hp, hno⟩ := hread.first
  obtain ⟨newer, s, older, rfl, hl, hev⟩ := hr.taken_of_event hp
  obtain ⟨k, ht⟩ := hr.thread_of_op hl hc
  obtain ⟨hold, hok, hs⟩ := hr.split
  have hmust : freshMust co id (s.before.events t) (.readToken scope) :=
    (foreignScript_holds lib svc).must hold.reach ht
  rw [hev] at hmust
  obtain hmust | ⟨d, hclaim, rfl, hm⟩ := hmust
  · exact hno hmust
  rw [← hev] at hclaim hm
  obtain ⟨-, hactive⟩ := (locked_of_reach h₀ hold.reach).claimed ht hclaim
  obtain ⟨r, hrow, -⟩ := Hub.status?_eq_some.mp hactive
  obtain ⟨rfl, -, hkey⟩ := claimed_key h₀ hold.reach (mem_events.mp hm)
  have hnone := ha.nothing s (by simp) _ _ hl r hrow
  rw [scope_of_claimed (hkey r hrow)] at hnone
  rw [hl] at hok
  have hstore := hok.2
  simp only [Hub.StorePort, hnone, Option.any_none, Bool.false_eq_true] at hstore

theorem fresh_writes (h₀ : w₀.Idle) (hr : Run (system lib svc) (· = w₀) Documented tr cfg)
    (hc : cfg.call? t = some (.ensureFresh co id)) (hno : ¬ HasRead (cfg.events t))
    {s : Taken (system lib svc)} (hm : s ∈ tr) {wr : Write}
    (hwr : wr ∈ (Hub.txs s.before.world).writes t) :
    ToldGone cfg t ∧ ∃ now, wr = .update id .expireActive now := by
  have hX := foreignScript_holds lib svc
  have hreach : Reach (system lib svc) (· = w₀) Documented s.before := by
    obtain ⟨newer, older, rfl⟩ := List.append_of_mem hm
    exact hr.split.1.reach
  have hasked := asked_of_writes hreach h₀ hwr
  have must : ∀ {op} {ans : Ans op}, s.before.Did t op ans → ∃ pre, ⟨op, ans⟩ :: pre <:+ cfg.events t ∧
      freshMust co id pre op := fun hd => hX.past hr.reach hc (hr.did_of_before hm hd)
  have unread : ∀ {ev : Event Sig} {pre}, ev :: pre <:+ cfg.events t → ¬ HasRead pre := by
    rintro ev pre hpre ⟨scope, b, hm⟩
    exact hno ⟨scope, b, hpre.subset (List.mem_cons_of_mem _ hm)⟩
  -- A call that never read a bundle asks for no write but the one that ends the account.
  cases wr with
  | delete x =>
    obtain ⟨pre, hpre, hread | hfalse⟩ := must hasked
    · exact absurd hread (unread hpre)
    · exact hfalse.elim
  | insert row =>
    obtain ⟨pre, hpre, hread | hfalse⟩ := must hasked
    · exact absurd hread (unread hpre)
    · exact hfalse.elim
  | update x u now =>
    obtain ⟨pre, hpre, hread | ⟨d, -, rfl, rfl, ⟨scope, f, hdead, hf⟩, hclaim⟩⟩ := must hasked
    · exact absurd hread (unread hpre)
    have past : ∀ {op} {ans : Ans op}, (⟨op, ans⟩ : Event Sig) ∈ pre → cfg.Did t op ans :=
      fun hm => mem_events.mp (hpre.subset (List.mem_cons_of_mem _ hm))
    obtain ⟨hid, -⟩ := claimed_key h₀ hr.reach (past hclaim)
    exact ⟨.inr ⟨scope, f, hdead, past hf⟩, now, by rw [hid]⟩

theorem ensureFresh_foreign (h₀ : w₀.Idle) (hr : Run (system lib svc) (· = w₀) Documented tr cfg)
    {res : Except OauthError AccountRow} (hdone : cfg.threads t = .done (.ensureFresh co id) res)
    (ha : Abroad tr cfg t co id home account) :
    FailsClosed tr cfg t id (account.scope home) ↔ ¬ ToldGone cfg t := by
  have hX := foreignScript_holds lib svc
  have hc : cfg.call? t = some (.ensureFresh co id) := by rw [Config.call?, hdone, Thread.call?]
  have hno := not_read h₀ hr hc ha
  have must : ∀ {op} {ans : Ans op}, cfg.Did t op ans → ∃ pre, ⟨op, ans⟩ :: pre <:+ cfg.events t ∧
      ¬ HasRead pre ∧ freshMust co id pre op := by
    intro op ans hd
    obtain ⟨pre, hpre, hm⟩ := hX.past hr.reach hc hd
    refine ⟨pre, hpre, ?_, hm⟩
    rintro ⟨scope, b, hm⟩
    exact hno ⟨scope, b, hpre.subset (List.mem_cons_of_mem _ hm)⟩
  constructor
  · intro h htold
    have hdead : ReadDead (cfg.events t) := by
      rcases htold with ⟨scope, ans, -, hd⟩ | ⟨scope, f, hf, hd⟩
      · obtain ⟨pre, -, hnot, hread | hfalse⟩ := must hd
        · exact absurd hread hnot
        · exact hfalse.elim
      · exact ⟨scope, f, hf, mem_events.mpr hd⟩
    have hleave : freshLeave id (cfg.events t) := hX.leave hr.reach hdone
    rcases hleave with hread | hfailed | hend
    · exact hno hread
    · exact not_failed hr hfailed
    obtain ⟨d, n, hclaim, before, after, hevents⟩ := hend hdead
    obtain ⟨rfl, -⟩ := claimed_key h₀ hr.reach (mem_events.mp hclaim)
    -- the commit comes right after the update that ends the account
    have hsuffix : (⟨.commit, .ok ()⟩ : Event Sig) :: ⟨.updateTx d.id .expireActive, .ok n⟩ :: after <:+
        cfg.events t := ⟨before, by simpa using hevents⟩
    obtain ⟨newer, s, older, rfl, hl, hev⟩ := hr.taken_of_event hsuffix
    obtain ⟨k, ht⟩ := hr.thread_of_op hl hc
    obtain ⟨hold, -, hs⟩ := hr.split
    obtain ⟨now, hm⟩ := queued_of_last h₀ hold.reach ht hev
    obtain ⟨r, hrow, hactive⟩ := Hub.status?_eq_some.mp ((locked_of_reach h₀ hold.reach).active hm)
    obtain ⟨r', hrow', hexpired⟩ := Hub.foldl_expired (List.ne_nil_of_mem hm)
      (fun wr hwr => (fresh_writes h₀ hr hc hno (by simp) hwr).2) hrow
    have hkept := h.kept s (by simp) _ _ hl
    rw [hl] at hs
    have hcommit : some (Hub.commit s.before.world t) = some s.after.world := hs.next_eq
    rw [← Option.some.inj hcommit, Hub.commit_accounts, hrow', hrow] at hkept
    cases hkept
    rw [hexpired] at hactive
    cases hactive
  · intro hgone
    constructor
    · intro s hm op ans hl
      have hd : cfg.Did t op ans := by
        rw [Config.Did, hr.hist_eq, ← hl]
        exact List.mem_map_of_mem hm
      obtain ⟨pre, -, hnot, hread | hmust⟩ := must hd
      · exact absurd hread hnot
      by_cases hcommit : op = .commit
      · subst hcommit
        have hnil : (Hub.txs s.before.world).writes t = [] := by
          refine List.eq_nil_iff_forall_not_mem.mpr fun wr hwr => ?_
          exact hgone (fresh_writes h₀ hr hc hno hm hwr).1
        obtain ⟨newer, older, rfl⟩ := List.append_of_mem hm
        obtain ⟨-, -, hs⟩ := hr.split
        rw [hl] at hs
        have hch := step_change hs
        generalize s.after.world = w' at hch
        cases hch with
        | quiet hq => rfl
        | commit => rw [Hub.commit_accounts, hnil, List.foldl_nil]
      · have hset : ¬ IsSet ⟨op, ans⟩ := by
          intro hset
          cases op with
          | update x u => exact hmust
          | _ => exact hset
        rw [Run.accounts_eq hr hm hl hset hcommit]
    · intro co' hd
      rw [hdone] at hd
      cases hd

/-- **A foreign scope fails closed exactly when the store does not tell the call so.** A disconnect or a
lazy refresh, under a company for which the store holds nothing, leaves an active account alone exactly
when it does not ask the store, or the store fails for another reason. -/
theorem foreign_scope_iff (h₀ : w₀.Idle) (hr : Run (system lib svc) (· = w₀) Documented tr cfg) {c : Call}
    (hc : c = .disconnect co id ∨ c = .ensureFresh co id) {res : Res c}
    (hdone : cfg.threads t = .done c res) (ha : Abroad tr cfg t co id home account) :
    FailsClosed tr cfg t id (account.scope home) ↔ ¬ ToldGone cfg t := by
  rcases hc with rfl | rfl
  · exact disconnect_foreign hr hdone ha
  · exact ensureFresh_foreign h₀ hr hdone ha

end

/-! ## A disconnect under company 8 -/

def connectedRow : AccountRow :=
  ⟨1, "gmail", "user@example.com", .active, "", some 3600000000, none⟩

/-- The credential is under company 9. -/
def foreignRun : List (Label (system mailCrates mailService)) :=
  [.start 0 (.disconnect 8 1), .op 0 (.fetchAccount 1) (.ok (some connectedRow)),
    .op 0 (.revoke (connectedRow.scope 8)) (.error ⟨OAuthCredentialFailure.codeNotFound, ""⟩),
    .op 0 (.update 1 .revoke) (.ok (1 : Nat)), .finish 0]

def foreignRules (cfg : Config (system mailCrates mailService))
    (l : Label (system mailCrates mailService)) : Bool :=
  mailRules cfg l && decide (Hub.credentials cfg.world = flightHub.credentials)

def foreignEnd (cfg : Config (system mailCrates mailService)) : Bool :=
  match cfg.threads 0 with
  | .done (.disconnect ..) (.ok _) => Hub.status? cfg.world 1 == some .revoked
  | _ => false

theorem foreignRun_runs : (replay (fun cfg l => foreignRules cfg l) (.init flightHub) foreignRun).any
    foreignEnd = true := by
  decide +kernel

theorem foreignRun_reach : ∃ (cfg : Config (system mailCrates mailService))
    (tr : List (Taken (system mailCrates mailService))),
    Run (system mailCrates mailService) (· = flightHub) Documented tr cfg ∧
      cfg.hist = foreignRun.reverse ∧ cfg.threads 0 = .done (.disconnect 8 1) (.ok ()) ∧
      Hub.status? cfg.world 1 = some .revoked ∧ Abroad tr cfg 0 8 1 9 connectedRow := by
  obtain ⟨cfg, hreach, hh, hend⟩ : ∃ cfg, Reach (system mailCrates mailService) (· = flightHub)
      (fun cfg l => foreignRules cfg l) cfg ∧ cfg.hist = foreignRun.reverse ∧ foreignEnd cfg = true := by
    refine Reach.exists_of_replay ?_ foreignRun_runs
    rfl
  obtain ⟨tr, htr⟩ := hreach.run
  have hcall : cfg.call? 0 = some (.disconnect 8 1) :=
    hreach.call_of_start (by simp [hh, foreignRun])
  have store : ∀ s ∈ tr, Hub.credentials s.before.world = flightHub.credentials := by
    refine htr.forall_taken fun _ hok _ => ?_
    simp only [foreignRules, Bool.and_eq_true, decide_eq_true_eq] at hok
    exact hok.2
  have hrun : Run (system mailCrates mailService) (· = flightHub) Documented tr cfg := by
    refine htr.mono fun cfg l hok => ?_
    simp only [foreignRules, Bool.and_eq_true] at hok
    cases l with
    | op t op ans => simpa [mailRules, Documented] using hok.1
    | _ => trivial
  have habroad : Abroad tr cfg 0 8 1 9 connectedRow := by
    constructor
    · simp [Config.Did, hh, foreignRun]
    · rfl
    · intro s hm op ans _ r _
      rw [Hub.current, store s hm]
      simp [flightHub, dueStored, Credential.IsCurrent, mailScope, Account.scope]
    · intro s hm _
      rw [Hub.current, store s hm]
      decide
  simp only [foreignEnd] at hend
  split at hend
  · rename_i heq
    rw [Config.call?, heq] at hcall
    cases hcall
    exact ⟨cfg, tr, hrun, hh, heq, by simpa using hend, habroad⟩
  · cases hend

theorem foreign_scope_iff_mailbox : ∃ (cfg : Config (system mailCrates mailService))
    (tr : List (Taken (system mailCrates mailService))), cfg.hist = foreignRun.reverse ∧
      (FailsClosed tr cfg 0 1 (connectedRow.scope 9) ↔ ¬ ToldGone cfg 0) := by
  obtain ⟨cfg, tr, hr, hh, hdone, -, ha⟩ := foreignRun_reach
  exact ⟨cfg, tr, hh, foreign_scope_iff flightHub_idle hr (.inl rfl) hdone ha⟩

/-! The disconnect under company 8 revokes the account and returns `Ok`, and the credential under
company 9 stays live. -/

theorem foreign_disconnect_revokes : ∃ (cfg : Config (system mailCrates mailService))
    (tr : List (Taken (system mailCrates mailService))),
    Run (system mailCrates mailService) (· = flightHub) Documented tr cfg ∧
      Abroad tr cfg 0 8 1 9 connectedRow ∧ cfg.threads 0 = .done (.disconnect 8 1) (.ok ()) ∧
      Hub.status? cfg.world 1 = some .revoked ∧ ¬ FailsClosed tr cfg 0 1 (connectedRow.scope 9) := by
  obtain ⟨cfg, tr, hr, hh, hdone, hrev, ha⟩ := foreignRun_reach
  refine ⟨cfg, tr, hr, ha, hdone, hrev, fun h => ?_⟩
  obtain ⟨s, hm, hl⟩ := hr.finish_of_done hdone
  exact ha.live s hm hl (h.refused 8 hdone s hm hl)

end BackboneIntegrations.OAuth
