import BackboneIntegrations.OAuth.Alone
import BackboneIntegrations.OAuth.Locks

/-!
# What a call alone makes of the accounts and the store

A call that runs alone, with no statement failing, takes a few kinds of turns. What every turn
keeps, every call keeps.
-/

open Interleave

namespace BackboneIntegrations.OAuth

open IntegrationsOauthService

variable {lib : Crates} {svc : IntegrationsOauthService} {co : Uuid}

/-! ## Turns -/

/-- What a refresh makes of the row of a successor. -/
def IsMirror (scope : Option String) (e : Time) (u : ClaimedUpdate) : Prop :=
  (∃ now, u = .mirror e scope now) ∨ u = .mirrorNow e

inductive Turn (co : Uuid) (T : Accounts) (cs : Credentials) : Accounts → Credentials → Prop
  | replace {row : NewAccount} {ids : List Uuid} {T' : Accounts}
    (hids : ∀ id, id ∈ ids ↔ ∃ r, T.lookup id = some r ∧ r.key = (row.provider, row.accountRef))
    (hT : ∀ x, T'.lookup x =
      if x = row.id then some row.toAccount else if x ∈ ids then none else T.lookup x) :
    Turn co T cs T' cs
  | complete {g : Grant} {refresh : Option String} {r : Account} {cs' : Credentials}
    (hr : T.lookup g.state.accountId = some r) (hp : r.status = .pending)
    (hcs : cs.current (r.scope co) = none ∧ cs' = cs ∨ cs' = cs.withdraw (r.scope co)) :
    Turn co T cs
      (T.insert g.state.accountId
        ((StatusUpdate.activate (g.response.scope.getD "") g.expiresAt g.now).set r))
      (⟨r.scope co, purposeOauthToken, g.bundle refresh, g.expiresAt, true⟩ :: cs')
  | disconnect {id : Uuid} {r : Account} {T' : Accounts} {cs' : Credentials}
    (hr : T.lookup id = some r)
    (hT : if StatusUpdate.revoke.guard r.status then T' = T.insert id (StatusUpdate.revoke.set r)
      else T' = T)
    (hcs : cs' = cs.withdraw (r.scope co) ∨ cs' = cs) :
    Turn co T cs T' cs'
  | expire {id : Uuid} {r : Account} {u : ClaimedUpdate} {now : Time} (hr : T.lookup id = some r)
    (hu : u.Expires) : Turn co T cs (T.insert id (u.set now r)) cs
  | resync {id : Uuid} {r : Account} {c : Credential} {now : Time} (hr : T.lookup id = some r)
    (hc : cs.current (r.scope co) = some c) :
    Turn co T cs (T.insert id ((ClaimedUpdate.resync c.bundle.expiresAt).set now r)) cs
  | rotate {id : Uuid} {r : Account} {c : Credential} {response : TokenResponse} {e now : Time}
    {u : ClaimedUpdate} (hr : T.lookup id = some r) (ha : r.status = .active)
    (hc : cs.current (r.scope co) = some c) (hu : IsMirror (response.scope.or c.bundle.scope) e u) :
    Turn co T cs (T.insert id (u.set now r))
      (⟨r.scope co, purposeOauthToken, RefreshJob.successor c.bundle response e, e, true⟩ ::
        cs.withdraw (r.scope co))

/-! ## The contract -/

/-- A call may panic only where `I` holds. -/
def panicsIn (I : Accounts → Credentials → Prop) (v : View) (op : Op) : Prop :=
  op = .panic → I v.accounts v.credentials

/-- What every turn keeps. -/
def Kept (co : Uuid) (I : Accounts → Credentials → Prop) : Prop :=
  ∀ {T cs T' cs'}, Turn co T cs T' cs' → I T cs → I T' cs'

/-- What the turns keep in which the row gets what the store gets, whatever the provider answers. -/
structure Unswayed (co : Uuid) (I : Accounts → Credentials → Prop) : Prop where
  replace : ∀ {T cs} {row : NewAccount} {ids : List Uuid} {T' : Accounts},
    (∀ id, id ∈ ids ↔ ∃ r, T.lookup id = some r ∧ r.key = (row.provider, row.accountRef)) →
    (∀ x, T'.lookup x = if x = row.id then some row.toAccount else if x ∈ ids then none else T.lookup x) →
    I T cs → I T' cs
  disconnect : ∀ {T : Accounts} {cs : Credentials} {id : Uuid} {r : Account} {T' cs'},
    T.lookup id = some r →
    (if StatusUpdate.revoke.guard r.status then T' = T.insert id (StatusUpdate.revoke.set r)
      else T' = T) →
    cs' = cs.withdraw (r.scope co) ∨ cs' = cs → I T cs → I T' cs'
  expire : ∀ {T : Accounts} {cs : Credentials} {id : Uuid} {r : Account} {u : ClaimedUpdate} {now : Time},
    T.lookup id = some r → u.Expires → I T cs → I (T.insert id (u.set now r)) cs
  resync : ∀ {T : Accounts} {cs : Credentials} {id : Uuid} {r : Account} {c : Credential} {now : Time},
    T.lookup id = some r → cs.current (r.scope co) = some c → I T cs →
    I (T.insert id ((ClaimedUpdate.resync c.bundle.expiresAt).set now r)) cs
  mirror : ∀ {T : Accounts} {cs : Credentials} {id : Uuid} {r : Account} {c : Credential}
    {response : TokenResponse} {e now now' : Time}, T.lookup id = some r → r.status = .active →
    cs.current (r.scope co) = some c → I T cs →
    I (T.insert id ((ClaimedUpdate.mirror e (response.scope.or c.bundle.scope) now).set now' r))
      (⟨r.scope co, purposeOauthToken, RefreshJob.successor c.bundle response e, e, true⟩ ::
        cs.withdraw (r.scope co))

theorem Kept.unswayed {I : Accounts → Credentials → Prop} (hI : Kept co I) : Unswayed co I where
  replace hids hT := hI (.replace hids hT)
  disconnect hr hT hcs := hI (.disconnect hr hT hcs)
  expire hr hu := hI (.expire hr hu)
  resync hr hc := hI (.resync hr hc)
  mirror hr ha hc := hI (.rotate hr ha hc (.inl ⟨_, rfl⟩))

/-- The program takes its view, with no open write, from `I` to `I`. -/
def Keeps {α : Type} (I : Accounts → Credentials → Prop) (p : Prog Sig α) (v : View) : Prop :=
  Meets (View.contract .any (panicsIn I)) p v fun _ v' => I v'.accounts v'.credentials

section

variable {I : Accounts → Credentials → Prop} {v : View} {T : Accounts} {cs : Credentials}

/-! ## `authorize` -/

theorem foldl_deletes (ids : List Uuid) (T : Accounts) (x : Uuid) :
    ((ids.map Write.delete).foldl Write.run T).lookup x = if x ∈ ids then none else T.lookup x := by
  induction ids generalizing T with
  | nil => rfl
  | cons id ids ih =>
    rw [List.map_cons, List.foldl_cons, ih, Write.run, Table.lookup_erase_ite]
    by_cases hx : x = id
    · simp [hx]
    · simp [hx]

theorem deleteRows_alone {must : View → Op → Prop} (hm : ∀ v op, op ≠ .panic → must v op)
    {ids : List Uuid} (hids : ∀ id ∈ ids, v.accounts.lookup id ≠ none)
    {Q : Except OauthError Unit → View → Prop}
    (hQ : Q (.ok ()) { v with writes := v.writes ++ ids.map .delete }) :
    Meets (View.contract .any must) (deleteRows ids).run v Q := by
  induction ids generalizing v with
  | nil => simpa [deleteRows] using hQ
  | cons id ids ih =>
    obtain ⟨hid, hrest⟩ := List.forall_mem_cons.mp hids
    simp only [deleteRows, sql, ask, Prog.ask, meets_run_bind, meets_run_orFail]
    refine View.meets_deleteRow hid (hm _ _ (by rintro ⟨⟩)) fun n => ?_
    refine ih hrest ?_
    simpa [View.queue] using hQ

theorem replaceRow_alone (hI : Unswayed co I) (h : I T cs) {row : NewAccount}
    {Q : Except OauthError Unit → View → Prop} (hQ : ∀ T', I T' cs → Q (.ok ()) ⟨T', cs, []⟩) :
    Meets (View.contract .any (panicsIn I)) (replaceRow row).run ⟨T, cs, []⟩ Q := by
  simp only [replaceRow, begin, commit, sql, ask, Prog.ask, meets_run_bind, meets_run_orFail,
    View.meets_begin, View.meets_deleteSnapshot, meets_ret, Except.mapError]
  refine ⟨by rintro ⟨⟩, by rintro ⟨⟩, fun ids hids => ?_⟩
  refine deleteRows_alone (fun _ _ hne hp => absurd hp hne) (fun id hid => ?_) ?_
  · obtain ⟨r, hr, -⟩ := (hids id).mp hid
    exact Option.ne_none_iff_exists'.mpr ⟨r, hr⟩
  simp only [View.meets_insertAccount, View.meets_commit, meets_ret]
  refine ⟨by rintro ⟨⟩, fun _ => ⟨by rintro ⟨⟩, hQ _ (hI.replace hids (fun x => ?_) h)⟩⟩
  simp only [View.queue, List.nil_append, List.foldl_append, List.foldl_cons, List.foldl_nil,
    Write.run, Table.lookup_insert_ite, foldl_deletes]

theorem mintText_alone {must : View → Op → Prop} {n : Nat} (hm : must v (.randomBytes n))
    {Q : Except OauthError String → View → Prop} (hQ : ∀ text, Q (.ok text) v) :
    Meets (View.contract .any must) (mintText lib n).run v Q := by
  simp only [mintText, ask, Prog.ask, meets_run_bind, meets_run_answer, View.meets_randomBytes,
    meets_ret]
  exact ⟨hm, fun bytes => hQ _⟩

theorem authorize_alone (hI : Unswayed co I) (h : I T cs) (req : AuthorizeRequest) :
    Keeps I (svc.authorize lib req).run ⟨T, cs, []⟩ := by
  rw [Keeps, authorize, meets_run_bind, meets_run_ofExcept]
  cases svc.admitRequest lib req with
  | error e => exact h
  | ok a =>
    have hadmitted : ∀ verifier, Meets (View.contract .any (panicsIn I))
        (svc.authorizeAdmitted lib a verifier).run ⟨T, cs, []⟩
        fun _ v' => I v'.accounts v'.credentials := by
      intro verifier
      simp only [authorizeAdmitted, ask, Prog.ask, meets_run_bind, meets_run_answer,
        View.meets_newUuid, meets_ret]
      refine ⟨by rintro ⟨⟩, fun id => replaceRow_alone hI h fun T' hT' => ?_⟩
      refine mintText_alone (by rintro ⟨⟩) fun nonce => ?_
      simp only [utcNow, ask, Prog.ask, meets_run_answer, meets_run_ofExcept, View.meets_utcNow,
        meets_ret]
      refine ⟨by rintro ⟨⟩, fun now => ?_⟩
      split
      · split <;> exact hT'
      · exact hT'
    simp only [meets_run_bind, meets_run_ite, meets_run_map]
    exact ⟨fun _ => mintText_alone (by rintro ⟨⟩) fun text => hadmitted _, fun _ => hadmitted none⟩

/-! ## `complete` -/

/-- The account of the grant is the pending row of its state. -/
def IntegrationsOauthService.Grant.Pending (g : Grant) (T : Accounts) : Prop :=
  ∃ r, T.lookup g.state.accountId = some r ∧ r.status = .pending ∧
    g.account = r.toRow g.state.accountId

variable {must : View → Op → Prop}

theorem verify_alone (hm : ∀ op, op ≠ .panic → must v op) {token : String}
    {Q : Except OauthError OAuthState → View → Prop} (herr : ∀ e, Q (.error e) v)
    (hok : ∀ state, svc.signer.binding lib token = .ok state → Q (.ok state) v) :
    Meets (View.contract .any must) (svc.verify lib token).run v Q := by
  rw [verify, meets_run_bind, meets_run_ofExcept]
  cases hb : svc.signer.binding lib token with
  | error e => exact herr e
  | ok state =>
    simp only [utcNow, ask, Prog.ask, meets_run_bind, meets_run_answer, meets_run_ite,
      meets_run_throw, View.meets_utcNow, meets_ret]
    exact ⟨hm _ (by rintro ⟨⟩), fun t => ⟨fun _ => herr _, fun _ => hok state hb⟩⟩

theorem pendingAccount_alone (hm : ∀ op, op ≠ .panic → must v op) {state : OAuthState}
    {Q : Except OauthError (AccountRow × ProviderAdapter × ValidatedEndpoints × String) →
      View → Prop} (herr : ∀ e, Q (.error e) v)
    (hok : ∀ r adapter endpoints clientId, v.accounts.lookup state.accountId = some r →
      r.status = .pending → svc.registry.lookup r.provider = some adapter →
      Q (.ok (r.toRow state.accountId, adapter, endpoints, clientId)) v) :
    Meets (View.contract .any must) (svc.pendingAccount lib state).run v Q := by
  simp only [pendingAccount, fetchAccount, sql, ask, Prog.ask, meets_run_bind, meets_run_orFail,
    View.meets_fetchAccount, meets_ret]
  refine ⟨hm _ (by rintro ⟨⟩), ?_⟩
  cases hr : v.accounts.lookup state.accountId with
  | none => exact herr _
  | some r =>
    simp only [Option.map_some, Except.mapError, meets_run_bind, meets_run_ite, meets_run_throw]
    refine ⟨fun _ => herr _, fun _ => ⟨fun _ => herr _, fun hs => ?_⟩⟩
    split
    · rename_i adapter hadapter
      simp only [meets_run_bind, meets_run_ofExcept]
      cases svc.endpointsFor lib (r.toRow state.accountId).provider with
      | error e => exact herr _
      | ok ec => exact hok r _ _ _ hr (not_not.mp hs) hadapter
    · exact herr _

theorem storedVerifier_alone (hm : ∀ op, op ≠ .panic → must v op) {id : Uuid}
    {Q : Except OauthError String → View → Prop} (herr : ∀ e, Q (.error e) v)
    (hok : ∀ verifier, Q (.ok verifier) v) :
    Meets (View.contract .any must) (storedVerifier id).run v Q := by
  simp only [storedVerifier, sql, ask, Prog.ask, meets_run_bind, meets_run_orFail,
    View.meets_fetchVerifier, meets_ret, Except.mapError]
  refine ⟨hm _ (by rintro ⟨⟩), fun x => ?_⟩
  split
  · exact hok _
  · exact herr _

theorem identify_alone (hm : ∀ op, op ≠ .panic → must v op) (hpanic : must v .panic)
    {req : CompleteRequest} {state : OAuthState} {account : AccountRow} {adapter : ProviderAdapter}
    {endpoints : ValidatedEndpoints} {clientId : String} {verifier : Option String}
    {Q : Except OauthError Grant → View → Prop} (herr : ∀ e, Q (.error e) v)
    (hok : ∀ g : Grant, g.state = state → g.account = account → Q (.ok g) v) :
    Meets (View.contract .any must)
      (svc.identify lib req state account adapter endpoints clientId verifier).run v Q := by
  simp only [identify, utcNow, ask, Prog.ask, meets_run_bind, meets_run_orFail, meets_run_answer,
    View.meets_exchange, meets_ret]
  refine ⟨hm _ (by rintro ⟨⟩), ?_⟩
  rintro (f | response) -
  · exact herr _
  simp only [Except.mapError, View.meets_utcNow, meets_ret]
  refine ⟨hm _ (by rintro ⟨⟩), fun now => ?_⟩
  refine meets_expiresAt hpanic (herr _) fun secs e _ _ _ => ?_
  simp only [meets_run_bind, meets_run_orFail, meets_run_ofExcept, meets_run_pure,
    View.meets_fetchIdentity, meets_ret]
  refine ⟨hm _ (by rintro ⟨⟩), ?_⟩
  rintro (f | identity)
  · exact herr _
  simp only [Except.mapError]
  split
  · split
    · exact hok _ rfl rfl
    · exact herr _
  · exact herr _

theorem gauntlet_alone (hm : ∀ op, op ≠ .panic → must v op) (hpanic : must v .panic)
    {req : CompleteRequest} {Q : Except OauthError Grant → View → Prop}
    (herr : ∀ e, Q (.error e) v) (hok : ∀ g : Grant, g.Pending v.accounts → Q (.ok g) v) :
    Meets (View.contract .any must) (svc.gauntlet lib req).run v Q := by
  rw [gauntlet, meets_run_bind]
  refine verify_alone hm herr fun state _ => ?_
  simp only [meets_run_bind]
  refine pendingAccount_alone hm herr fun r adapter endpoints clientId hr hs _ => ?_
  have hrest : ∀ verifier, Meets (View.contract .any must) (svc.identify lib req state
      (r.toRow state.accountId) adapter endpoints clientId verifier).run v Q := fun verifier =>
    identify_alone hm hpanic herr fun g hstate haccount => hok g
      ⟨r, by rw [hstate, hr], hs, by rw [haccount, hstate]⟩
  simp only [meets_run_bind, meets_run_ite, meets_run_map]
  exact ⟨fun _ => storedVerifier_alone hm herr fun _ => hrest _, fun _ => hrest none⟩

theorem carriedRefresh_alone (hm : ∀ op, op ≠ .panic → must v op) {g : Grant}
    {Q : Except OauthError (Option String) → View → Prop} (hok : ∀ refresh, Q (.ok refresh) v) :
    Meets (View.contract .any must) (carriedRefresh co g).run v Q := by
  unfold carriedRefresh
  split
  · exact hok _
  · simp only [ask, Prog.ask, meets_run_bind, meets_run_answer, View.meets_readToken, meets_ret]
    exact ⟨hm _ nofun, fun _ _ => hok _, fun _ _ _ => hok _⟩

theorem storing_alone (h : I T cs) {g : Grant} {r : Account} (hr : T.lookup g.state.accountId = some r)
    (hp : r.status = .pending) (ha : g.account = r.toRow g.state.accountId)
    (hI : ∀ refresh cs', cs.current (r.scope co) = none ∧ cs' = cs ∨ cs' = cs.withdraw (r.scope co) →
      I (T.insert g.state.accountId
          ((StatusUpdate.activate (g.response.scope.getD "") g.expiresAt g.now).set r))
        (⟨r.scope co, purposeOauthToken, g.bundle refresh, g.expiresAt, true⟩ :: cs')) :
    Keeps I (do
      let refresh ← carriedRefresh co g
      storeBundle co g refresh
      activate g : Flow OauthError CompleteOutcome).run ⟨T, cs, []⟩ := by
  have hm : ∀ {v : View} (op : Op), op ≠ .panic → panicsIn I v op :=
    fun _ hne hp => absurd hp hne
  have hscope : g.scope co = r.scope co := by rw [Grant.scope, ha]; rfl
  simp only [Keeps, meets_run_bind]
  refine carriedRefresh_alone hm fun refresh => ?_
  -- The row is still pending, so its update matches.
  have hactivate : ∀ cs', cs.current (r.scope co) = none ∧ cs' = cs ∨
      cs' = cs.withdraw (r.scope co) →
      Meets (View.contract .any (panicsIn I)) (activate g).run
        ⟨T, ⟨g.scope co, purposeOauthToken, g.bundle refresh, g.expiresAt, true⟩ :: cs', []⟩
        fun _ v' => I v'.accounts v'.credentials := by
    intro cs' hcs
    rw [hscope]
    simp only [activate, sql, ask, Prog.ask, meets_run_bind, meets_run_orFail]
    refine View.meets_update hr (hm _ (by rintro ⟨⟩)) (fun _ => ?_) (fun hg => ?_)
    · exact hI refresh cs' hcs
    · exact absurd (by rw [hp]; rfl) hg
  simp only [storeBundle, ask, Prog.ask, meets_run_bind, meets_run_answer, View.meets_issue, meets_ret]
  refine ⟨hm _ (by rintro ⟨⟩), fun f => ?_, fun cid hc => hactivate _ (.inl ⟨hscope ▸ hc, rfl⟩)⟩
  simp only [meets_run_ite, meets_run_bind, meets_run_orFail, meets_run_throw, View.meets_rotate,
    meets_ret]
  refine ⟨fun _ => ⟨hm _ (by rintro ⟨⟩), fun _ _ => h, fun cid c hc _ => ?_⟩, fun _ => h⟩
  exact hactivate _ (.inr (by rw [hscope]; rfl))

theorem complete_alone (hI : Kept co I) (h : I T cs) (req : CompleteRequest) :
    Keeps I (svc.complete lib co req).run ⟨T, cs, []⟩ := by
  have hm : ∀ {v : View} (op : Op), op ≠ .panic → panicsIn I v op :=
    fun _ hne hp => absurd hp hne
  rw [Keeps, complete, meets_run_bind]
  refine gauntlet_alone hm (fun _ => h) (fun _ => h) ?_
  rintro g ⟨r, hr, hp, ha⟩
  exact storing_alone h hr hp ha fun refresh cs' hcs => hI (.complete hr hp hcs) h

/-! ## `disconnect` and `status` -/

theorem disconnect_alone (hI : Unswayed co I) (h : I T cs) (id : Uuid) :
    Keeps I (disconnect co id).run ⟨T, cs, []⟩ := by
  simp only [Keeps, disconnect, fetchAccount, sql, ask, Prog.ask, meets_run_bind, meets_run_orFail,
    View.meets_fetchAccount, meets_ret]
  refine ⟨by rintro ⟨⟩, ?_⟩
  cases hr : T.lookup id with
  | none => exact h
  | some r =>
    have hupdate : ∀ cs', cs' = cs.withdraw (r.scope co) ∨ cs' = cs →
        ∀ Q : Except OauthError Nat → View → Prop, (∀ x T', I T' cs' → Q x ⟨T', cs', []⟩) →
        Meets (View.contract .any (panicsIn I)) (sql (ask (.update id .revoke))).run ⟨T, cs', []⟩
          Q := by
      intro cs' hcs Q hQ
      simp only [sql, ask, Prog.ask, meets_run_orFail]
      refine View.meets_update hr (by rintro ⟨⟩) (fun hg => ?_) (fun hg => ?_)
      · exact hQ _ _ (hI.disconnect hr (by rw [if_pos hg]) hcs h)
      · exact hQ _ _ (hI.disconnect hr (by rw [if_neg hg]) hcs h)
    simp only [Option.map_some, Except.mapError, meets_run_ite, meets_run_bind, meets_run_answer,
      meets_run_pure, View.meets_revoke, meets_ret]
    refine ⟨fun _ => h, fun _ => ⟨by rintro ⟨⟩, fun f => ⟨fun _ => ?_, fun _ => h⟩, ?_⟩⟩
    · exact hupdate cs (.inr rfl) _ fun x T' hT' => by cases x <;> exact hT'
    · exact hupdate _ (.inl rfl) _ fun x T' hT' => by cases x <;> exact hT'

theorem status_alone (h : I v.accounts v.credentials) (id : Uuid) :
    Keeps I (status id).run v := by
  simp only [Keeps, status, fetchAccount, sql, ask, Prog.ask, meets_run_bind, meets_run_orFail,
    View.meets_fetchAccount, meets_ret]
  refine ⟨by rintro ⟨⟩, ?_⟩
  cases v.accounts.lookup id <;> exact h

/-! ## The refresh of one claimed account -/

variable {Q : Except OauthError RefreshSummary → View → Prop} {id : Uuid} {r : Account}

theorem updateTx_alone {ε : Type} {P : Ports} {f : DbError → ε} {u : ClaimedUpdate}
    {Q : Except ε Nat → View → Prop} (hr : T.lookup id = some r) (hg : u.guard r.status)
    (hm : must ⟨T, cs, []⟩ (.updateTx id u)) (hQ : ∀ now, Q (.ok 1) ⟨T, cs, [.update id u now]⟩) :
    Meets (View.contract P must) (Prog.orFail f (ask (.updateTx id u))).run ⟨T, cs, []⟩ Q := by
  simp only [ask, Prog.ask, meets_run_orFail]
  exact View.meets_updateTx hr hg hm hQ

theorem commit_alone {ε : Type} {P : Ports} {f : DbError → ε} {u : ClaimedUpdate} {now : Time}
    {Q : Except ε Unit → View → Prop} (hr : T.lookup id = some r)
    (hm : must ⟨T, cs, [.update id u now]⟩ .commit)
    (hQ : Q (.ok ()) ⟨T.insert id (u.set now r), cs, []⟩) :
    Meets (View.contract P must) (Prog.orFail f (ask .commit)).run ⟨T, cs, [.update id u now]⟩
      Q := by
  simp only [ask, Prog.ask, meets_run_orFail, View.meets_commit, meets_ret]
  refine ⟨hm, ?_⟩
  simpa [View.commit, Write.run, hr, Except.mapError] using hQ

theorem expireClaimed_alone (hI : Unswayed co I) (h : I T cs) (hr : T.lookup id = some r)
    (ha : r.status = .active) {summary : RefreshSummary}
    (hQ : ∀ x T' cs', I T' cs' → Q x ⟨T', cs', []⟩) :
    Meets (View.contract .any (panicsIn I)) (expireClaimed id summary).run ⟨T, cs, []⟩ Q := by
  refine meets_run_bind.mpr (updateTx_alone hr (by rw [ha]; rfl) nofun fun now => ?_)
  refine meets_run_bind.mpr (commit_alone hr nofun ?_)
  exact hQ _ _ _ (hI.expire hr trivial h)

theorem leaveDue_alone (h : I T cs) {summary : RefreshSummary}
    (hQ : ∀ x T' cs', I T' cs' → Q x ⟨T', cs', []⟩) :
    Meets (View.contract .any (panicsIn I)) (leaveDue summary).run ⟨T, cs, []⟩ Q := by
  simp only [leaveDue, rollback, sql, ask, Prog.ask, meets_run_bind, meets_run_orFail,
    View.meets_rollback, meets_ret]
  exact ⟨by rintro ⟨⟩, hQ _ _ _ h⟩

theorem rotateClaimed_alone (hI : Unswayed co I) (h : I T cs) (hr : T.lookup id = some r)
    (ha : r.status = .active) {c : Credential} (hc : cs.current (r.scope co) = some c)
    {response : TokenResponse} {summary : RefreshSummary}
    (hQ : ∀ x T' cs', I T' cs' → Q x ⟨T', cs', []⟩) :
    Meets (View.contract .any (panicsIn I))
      (rotateClaimed co (r.toDue id) c.bundle response summary).run ⟨T, cs, []⟩ Q := by
  simp only [rotateClaimed, utcNow, ask, Prog.ask, meets_run_bind, meets_run_answer,
    View.meets_utcNow, meets_ret]
  refine ⟨by rintro ⟨⟩, fun now => ?_⟩
  refine meets_expiresAt (fun _ => h) (leaveDue_alone h hQ) fun secs e _ _ _ => ?_
  simp only [meets_run_bind, meets_run_orFail, View.meets_rotate, meets_ret, Except.mapError]
  refine ⟨by rintro ⟨⟩, fun _ _ => hQ _ _ _ h, fun cid c' hc' _ => ?_⟩
  refine updateTx_alone hr (by rfl) (by rintro ⟨⟩) fun now' => ?_
  refine commit_alone hr (by rintro ⟨⟩) ?_
  exact hQ _ _ _ (hI.mirror hr ha hc h)

theorem refreshPrior_alone (hI : Unswayed co I) (h : I T cs) (hr : T.lookup id = some r)
    (ha : r.status = .active) {c : Credential} (hc : cs.current (r.scope co) = some c)
    {summary : RefreshSummary} (hQ : ∀ x T' cs', I T' cs' → Q x ⟨T', cs', []⟩) :
    Meets (View.contract .any (panicsIn I))
      (svc.refreshPrior lib co (r.toDue id) c.bundle summary).run ⟨T, cs, []⟩ Q := by
  unfold refreshPrior
  split
  · exact expireClaimed_alone hI h hr ha hQ
  · split
    · exact leaveDue_alone h hQ
    · simp only [ask, Prog.ask, meets_run_bind, meets_run_answer, View.meets_exchange, meets_ret]
      refine ⟨nofun, ?_⟩
      rintro (f | response) -
      · simp only [meets_run_ite]
        exact ⟨fun _ => expireClaimed_alone hI h hr ha hQ, fun _ => leaveDue_alone h hQ⟩
      · exact rotateClaimed_alone hI h hr ha hc hQ

theorem refreshClaimed_alone (hI : Unswayed co I) (h : I T cs) (hr : T.lookup id = some r)
    (ha : r.status = .active) {summary : RefreshSummary}
    (hQ : ∀ x T' cs', I T' cs' → Q x ⟨T', cs', []⟩) :
    Meets (View.contract .any (panicsIn I))
      (svc.refreshClaimed lib co (r.toDue id) summary).run ⟨T, cs, []⟩ Q := by
  simp only [refreshClaimed, ask, Prog.ask, meets_run_bind, meets_run_answer, View.meets_readToken,
    meets_ret]
  refine ⟨by rintro ⟨⟩, fun f _ => ?_, fun c hc _ => ?_⟩
  · rw [meets_run_ite]
    exact ⟨fun _ => expireClaimed_alone hI h hr ha hQ, fun _ => leaveDue_alone h hQ⟩
  refine meets_orPanic (fun _ _ => h) fun freshUntil _ => ?_
  simp only [utcNow, ask, Prog.ask, meets_run_bind, meets_run_answer, meets_run_ite,
    View.meets_utcNow, meets_ret]
  refine ⟨by rintro ⟨⟩, fun now => ⟨fun _ => ?_, fun _ => ?_⟩⟩
  · refine updateTx_alone hr (by rfl) (by rintro ⟨⟩) fun now' => ?_
    refine commit_alone hr (by rintro ⟨⟩) ?_
    exact hQ _ _ _ (hI.resync hr hc h)
  · exact refreshPrior_alone hI h hr ha hc hQ

theorem refreshDueLoop_alone (hI : Unswayed co I) (h : I T cs) (left : Nat) (summary : RefreshSummary) :
    Keeps I (svc.refreshDueLoop lib co left summary).run ⟨T, cs, []⟩ := by
  induction left generalizing T cs summary with
  | zero => exact h
  | succ left ih =>
    simp only [Keeps, refreshDueLoop, begin, sql, ask, Prog.ask, meets_run_bind, meets_run_orFail,
      View.meets_begin, View.meets_claimDue, meets_ret, Except.mapError]
    refine ⟨by rintro ⟨⟩, by rintro ⟨⟩, ?_, ?_⟩
    · simp only [commit, sql, ask, Prog.ask, meets_run_orFail, View.meets_commit, meets_ret,
        Except.mapError]
      exact ⟨by rintro ⟨⟩, h⟩
    · intro d r hr ha hd
      rw [hd]
      refine meets_run_bind.mpr (refreshClaimed_alone hI h hr ha ?_)
      rintro (e | summary') T' cs' h'
      · exact h'
      · exact ih h' summary'

theorem isDue_alone (h : I v.accounts v.credentials) {expiresAt : Option Time}
    {Q : Except OauthError Bool → View → Prop} (hQ : ∀ due, Q (.ok due) v) :
    Meets (View.contract .any (panicsIn I)) (svc.isDue expiresAt).run v Q := by
  unfold isDue
  split
  · exact hQ false
  · refine meets_run_bind.mpr (meets_orPanic (fun _ _ => h) fun freshUntil _ => ?_)
    simp only [utcNow, ask, Prog.ask, meets_run_bind, meets_run_answer, View.meets_utcNow, meets_ret]
    exact ⟨by rintro ⟨⟩, fun now => hQ _⟩

theorem refreshNow_alone (hI : Unswayed co I) (h : I T cs) {id : Uuid}
    {Q : Except OauthError Unit → View → Prop} (hQ : ∀ x T' cs', I T' cs' → Q x ⟨T', cs', []⟩) :
    Meets (View.contract .any (panicsIn I)) (svc.refreshNow lib co id).run ⟨T, cs, []⟩ Q := by
  simp only [refreshNow, begin, sql, ask, Prog.ask, meets_run_bind, meets_run_orFail,
    View.meets_begin, View.meets_claimById, meets_ret, Except.mapError]
  refine ⟨by rintro ⟨⟩, by rintro ⟨⟩, ?_, ?_⟩
  · simp only [commit, sql, ask, Prog.ask, meets_run_orFail, View.meets_commit, meets_ret]
    exact ⟨by rintro ⟨⟩, hQ _ _ _ h⟩
  · intro r hr ha
    refine meets_run_bind.mpr (refreshClaimed_alone hI h hr ha ?_)
    rintro (e | summary) T' cs' h'
    · exact hQ _ _ _ h'
    · exact hQ _ _ _ h'

theorem ensureFresh_alone (hI : Unswayed co I) (h : I T cs) (id : Uuid) :
    Keeps I (svc.ensureFresh lib co id).run ⟨T, cs, []⟩ := by
  simp only [Keeps, ensureFresh, fetchAccount, sql, ask, Prog.ask, meets_run_bind,
    meets_run_orFail, View.meets_fetchAccount, meets_ret]
  refine ⟨by rintro ⟨⟩, ?_⟩
  cases T.lookup id with
  | none => exact h
  | some r =>
    simp only [Option.map_some, Except.mapError, meets_run_ite, meets_run_bind]
    refine ⟨fun _ => h, fun _ => isDue_alone h fun due => ?_⟩
    have hstatus : ∀ T' cs', I T' cs' → Meets (View.contract .any (panicsIn I)) (status id).run
        ⟨T', cs', []⟩ fun _ v' => I v'.accounts v'.credentials :=
      fun _ _ h' => status_alone h' id
    refine ⟨fun _ => ?_, fun _ => ?_⟩
    · refine refreshNow_alone hI h ?_
      rintro (e | ⟨⟩) T' cs' h'
      · exact h'
      · exact hstatus _ _ h'
    · exact hstatus _ _ h

/-! ## The job -/

section

open RefreshJob

variable {job : RefreshJob} {Q : Except DbError RefreshReport → View → Prop}
  {report : RefreshReport}

theorem expire_alone (hI : Unswayed co I) (h : I T cs) (hr : T.lookup id = some r)
    (hQ : ∀ x T' cs', I T' cs' → Q x ⟨T', cs', []⟩) :
    Meets (View.contract .any (panicsIn I)) (expire id report).run ⟨T, cs, []⟩ Q := by
  refine meets_run_bind.mpr (meets_run_bind.mpr (updateTx_alone hr (by rfl) nofun fun now => ?_))
  refine commit_alone hr nofun ?_
  exact hQ _ _ _ (hI.expire hr trivial h)

theorem skip_alone (h : I T cs) (hQ : ∀ x T' cs', I T' cs' → Q x ⟨T', cs', []⟩) :
    Meets (View.contract .any (panicsIn I)) (skip report).run ⟨T, cs, []⟩ Q := by
  simp only [skip, RefreshJob.sql, ask, Prog.ask, meets_run_bind, meets_run_orFail,
    View.meets_rollback, meets_ret]
  exact ⟨by rintro ⟨⟩, hQ _ _ _ h⟩

theorem rotateOne_alone (hI : Unswayed co I) (h : I T cs) (hr : T.lookup id = some r)
    {c : Credential} {now : Time} {response : TokenResponse}
    (hmirror : ∀ e now', I (T.insert id ((ClaimedUpdate.mirrorNow e).set now' r))
      (⟨r.scope co, purposeOauthToken, successor c.bundle response e, e, true⟩ ::
        cs.withdraw (r.scope co)))
    (hQ : ∀ x T' cs', I T' cs' → Q x ⟨T', cs', []⟩) :
    Meets (View.contract .any (panicsIn I))
      (rotateOne co (r.toDue id) c.bundle now response report).run ⟨T, cs, []⟩ Q := by
  refine meets_run_bind.mpr ?_
  refine meets_expiresAt (fun _ => h) (skip_alone h hQ) fun secs e _ _ _ => ?_
  simp only [ask, Prog.ask, meets_run_bind, meets_run_answer, View.meets_rotate, meets_ret]
  refine ⟨nofun, fun f _ => ?_, fun cid c' hc' _ => ?_⟩
  · simp only [meets_run_ite]
    exact ⟨fun _ => skip_alone h hQ, fun _ => expire_alone hI h hr hQ⟩
  · refine meets_run_bind.mpr (updateTx_alone hr (by rfl) nofun fun now' => ?_)
    refine meets_run_ite.mpr ⟨fun hne => absurd rfl hne, fun _ => ?_⟩
    refine meets_run_bind.mpr (commit_alone hr nofun ?_)
    exact hQ _ _ _ (hmirror e now')

theorem refreshBundle_alone (hI : Kept co I) (h : I T cs) (hr : T.lookup id = some r)
    (ha : r.status = .active) {endpoints : ValidatedEndpoints} {client : OAuthClientConfig}
    (hQ : ∀ x T' cs', I T' cs' → Q x ⟨T', cs', []⟩) :
    Meets (View.contract .any (panicsIn I))
      (refreshBundle co endpoints client (r.toDue id) report).run ⟨T, cs, []⟩ Q := by
  simp only [refreshBundle, ask, Prog.ask, meets_run_bind, meets_run_answer, View.meets_readToken,
    meets_ret]
  refine ⟨by rintro ⟨⟩, fun f _ => ?_, fun c hc _ => ?_⟩
  · simp only [meets_run_ite]
    exact ⟨fun _ => skip_alone h hQ, fun _ => expire_alone hI.unswayed h hr hQ⟩
  · split
    · exact expire_alone hI.unswayed h hr hQ
    · simp only [utcNow, ask, Prog.ask, meets_run_bind, meets_run_answer, View.meets_utcNow,
        View.meets_exchange, meets_ret]
      refine ⟨by rintro ⟨⟩, fun now => ⟨by rintro ⟨⟩, ?_⟩⟩
      rintro (f | response) -
      · simp only [meets_run_ite]
        exact ⟨fun _ => expire_alone hI.unswayed h hr hQ, fun _ => skip_alone h hQ⟩
      · refine rotateOne_alone hI.unswayed h hr (fun e now' => ?_) hQ
        exact hI (.rotate hr ha hc (.inr rfl)) h

theorem refreshOne_alone (hI : Kept co I) (h : I T cs) (hr : T.lookup id = some r)
    (ha : r.status = .active) (hQ : ∀ x T' cs', I T' cs' → Q x ⟨T', cs', []⟩) :
    Meets (View.contract .any (panicsIn I))
      (job.refreshOne lib co (r.toDue id) report).run ⟨T, cs, []⟩ Q := by
  unfold refreshOne
  split
  · exact skip_alone h hQ
  · split
    · exact skip_alone h hQ
    · exact refreshBundle_alone hI h hr ha hQ

theorem refreshLoop_alone (hI : Kept co I) (h : I T cs) (left : Nat) (attempted : List Uuid)
    (report : RefreshReport) (hQ : ∀ x T' cs', I T' cs' → Q x ⟨T', cs', []⟩) :
    Meets (View.contract .any (panicsIn I)) (job.refreshLoop lib co left attempted report).run
      ⟨T, cs, []⟩ Q := by
  induction left generalizing T cs attempted report with
  | zero => exact hQ _ _ _ h
  | succ left ih =>
    simp only [refreshLoop, RefreshJob.sql, ask, Prog.ask, meets_run_bind, meets_run_orFail,
      View.meets_begin, View.meets_claimDue, meets_ret, Except.mapError]
    refine ⟨by rintro ⟨⟩, by rintro ⟨⟩, ?_, ?_⟩
    · exact View.meets_rollback.mpr ⟨by rintro ⟨⟩, hQ _ _ _ h⟩
    · intro d r hr ha hd
      rw [hd]
      refine refreshOne_alone hI h hr ha ?_
      rintro (e | report') T' cs' h'
      · exact hQ _ _ _ h'
      · exact ih h' _ _

theorem refreshForCompanies_alone (hI : Kept co I) (h : I T cs) (companies : List Uuid)
    (hall : ∀ company ∈ companies, company = co) :
    Keeps I (job.refreshForCompanies lib companies) ⟨T, cs, []⟩ := by
  induction companies generalizing T cs with
  | nil => exact h
  | cons company companies ih =>
    obtain ⟨rfl, hrest⟩ := List.forall_mem_cons.mp hall
    simp only [Keeps, refreshForCompanies, ask, Prog.ask, meets_bind]
    refine refreshLoop_alone hI h _ _ _ fun x T' cs' h' => ?_
    refine View.meets_drop.mpr ⟨by rintro ⟨⟩, ?_⟩
    exact (ih h' hrest).mono fun _ _ h'' => h''

end

end

/-! ## Every call of one scope -/

/-- The calls under one store scope. -/
def ScopeCall (co : Uuid) : Call → Prop
  | .authorize _ | .status _ => True
  | .complete companyId _ | .disconnect companyId _ | .refreshDue companyId
  | .ensureFresh companyId _ | .refreshOauthCredentials _ companyId => companyId = co
  | .refreshForCompanies _ companies => ∀ companyId ∈ companies, companyId = co

instance : DecidablePred (ScopeCall co)
  | .authorize _ | .status _ => .isTrue trivial
  | .complete companyId _ | .disconnect companyId _ | .refreshDue companyId
  | .ensureFresh companyId _ | .refreshOauthCredentials _ companyId =>
    inferInstanceAs (Decidable (companyId = co))
  | .refreshForCompanies _ companies =>
    inferInstanceAs (Decidable (∀ companyId ∈ companies, companyId = co))

theorem call_keeps {I : Accounts → Credentials → Prop} (hI : Kept co I) {T : Accounts}
    {cs : Credentials} (h : I T cs) {c : Call} (hc : ScopeCall co c) :
    Keeps I (prog lib svc c) ⟨T, cs, []⟩ := by
  cases c with
  | authorize req => exact authorize_alone hI.unswayed h req
  | status id => exact status_alone h id
  | complete companyId req =>
    cases hc
    exact complete_alone hI h req
  | disconnect companyId id =>
    cases hc
    exact disconnect_alone hI.unswayed h id
  | refreshDue companyId =>
    cases hc
    exact refreshDueLoop_alone hI.unswayed h _ _
  | ensureFresh companyId id =>
    cases hc
    exact ensureFresh_alone hI.unswayed h id
  | refreshOauthCredentials job companyId =>
    cases hc
    exact refreshLoop_alone hI h _ _ _ fun _ _ _ h' => h'
  | refreshForCompanies job companies => exact refreshForCompanies_alone hI h companies hc

/-- What holds between two calls. -/
structure Rest (I : Accounts → Credentials → Prop) (w : Hub) : Prop where
  keeps : I w.accounts w.credentials
  writes : ∀ u, w.txs.writes u = []

theorem Rest.env {I : Accounts → Credentials → Prop} {w w' : Hub} {e : Env} (h : Rest I w)
    (hw : Hub.env e w = some w') : Rest I w' := by
  cases e with
  | tick clock =>
    simp only [Hub.env, Option.ite_none_right_eq_some, Option.some.injEq] at hw
    obtain ⟨-, rfl⟩ := hw
    exact ⟨h.keeps, h.writes⟩
  | kill token =>
    cases hw
    exact ⟨h.keeps, h.writes⟩

theorem Sees.rest {I : Accounts → Credentials → Prop} {t : Tid} {w : Hub} {v : View}
    (h : Sees t w v) (hv : I v.accounts v.credentials) : Rest I (w.release t) := by
  refine ⟨?_, fun u => h.clear_writes u⟩
  rw [← h.accounts, ← h.credentials] at hv
  exact hv

theorem Sees.unique {t : Tid} {w : Hub} {v v' : View} (h : Sees t w v) (h' : Sees t w v') : v' = v := by
  have hwrites : v'.writes = v.writes := by rw [← h.writes_self, h'.writes_self]
  cases v
  cases v'
  cases h.accounts.symm.trans h'.accounts
  cases h.credentials.symm.trans h'.credentials
  cases hwrites
  rfl

theorem Sees.next {t : Tid} {w w' : Hub} {v : View} (h : Sees t w v) {op : Op} {ans : Ans op}
    (hn : Hub.next t op ans w = some w') : ∃ v', Sees t w' v' := by
  refine ⟨⟨w'.accounts, w'.credentials, w'.txs.writes t⟩, rfl, rfl, fun u => ?_⟩
  split
  · subst_vars
    rfl
  · rename_i hu
    refine List.eq_nil_iff_forall_not_mem.mpr fun wr hm => ?_
    rcases (Hub.next_change hn).mem_writes hm with ⟨hm, -⟩ | ⟨rfl, -⟩
    · rw [h.writes, if_neg hu] at hm
      cases hm
    · exact hu rfl

/-- With one call at a time, what every turn keeps holds between any two calls. -/
theorem turns_solo {I : Accounts → Credentials → Prop} (hI : Kept co I) :
    Solo (system lib svc) (ScopeCall co) (· = .panic) storeAnswers
      (View.contract .any (panicsIn I)) Sees (Rest I) where
  call := by
    intro t c w hc hw
    refine ⟨⟨w.accounts, w.credentials, []⟩, ⟨rfl, rfl, fun u => ?_⟩, ?_⟩
    · rw [hw.writes, ite_self]
    · exact (call_keeps hI hw.keeps hc).mono fun _ v' hv w' hw' => hw'.rest hv
  op h ha hn := by
    obtain ⟨v', hv, hs⟩ := h.op ha hn
    exact ⟨v', ⟨Ports.any_allow .., hv⟩, hs⟩
  death hdies h hm := h.rest (hm hdies)
  env hw h := h.env hw
  calm hw h := h.env hw

end BackboneIntegrations.OAuth
