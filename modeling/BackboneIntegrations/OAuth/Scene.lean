import Mathlib.Data.Fintype.EquivFin
import BackboneIntegrations.OAuth.Build
import BackboneIntegrations.OAuth.Locks
import BackboneIntegrations.OAuth.Turns

/-!
# A new authorization with nothing beside it

A call that is over leaves nothing but what is in the tables. So an `authorize` that runs alone ends with
one pending row for its scope, whatever the calls before it were.
-/

open Interleave

namespace BackboneIntegrations.OAuth

open IntegrationsOauthService

variable {lib : Crates} {svc : IntegrationsOauthService} {w₀ : Hub}
  {ok : Config (system lib svc) → Label (system lib svc) → Prop} {cfg cfg' : Config (system lib svc)}

/-! ## No locks without a call -/

/-- Every lock and every open write belongs to a call that runs. -/
structure Owned (cfg : Config (system lib svc)) : Prop where
  holder : ∀ {u id}, (Hub.txs cfg.world).holder id = some u → ¬ (cfg.threads u).Quiet
  writes : ∀ {u wr}, wr ∈ (Hub.txs cfg.world).writes u → ¬ (cfg.threads u).Quiet

theorem owned_of_reach (h₀ : w₀.Idle) (hr : Reach (system lib svc) (· = w₀) ok cfg) : Owned cfg := by
  induction hr with
  | init h =>
    subst h
    constructor
    · intro u id hu
      rw [Config.init_world, h₀.txs] at hu
      cases hu
    · intro u wr hm
      rw [Config.init_world, h₀.txs] at hm
      cases hm
  | @step cfg l cfg' _ _ hs ih =>
    -- A thread that runs goes on running until it finishes or crashes.
    have stays : ∀ {u}, ¬ (cfg.threads u).Quiet → l ≠ .finish u → l ≠ .crash u →
        ¬ (cfg'.threads u).Quiet := by
      intro u hu hf hc
      have keep : ∀ {v w th}, (v = u → ¬ th.Quiet) → ¬ ((cfg.put w v th l).threads u).Quiet := by
        intro v w th hv
        by_cases huv : u = v
        · subst huv
          rw [Config.put_threads_self]
          exact hv rfl
        · rwa [cfg.put_threads_ne _ _ _ huv]
      cases hs with
      | start | op => exact keep fun _ hq => hq
      | finish =>
        refine keep fun hv => ?_
        subst hv
        exact absurd rfl hf
      | crash =>
        refine keep fun hv => ?_
        subst hv
        exact absurd rfl hc
      | env => exact hu
    by_cases hl : ∃ t op ans, l = .op t op ans
    · obtain ⟨t, op, ans, rfl⟩ := hl
      have hrun : ¬ (cfg'.threads t).Quiet := by
        cases hs with
        | op ht hw =>
          rw [Config.put_threads_self]
          exact id
      constructor
      · intro u id hu
        rcases (step_change hs).holder_of hu with hu | rfl
        · exact stays (ih.holder hu) (by simp) (by simp)
        · exact hrun
      · intro u wr hm
        rcases (step_change hs).mem_writes hm with ⟨hm, -⟩ | ⟨rfl, -⟩
        · exact stays (ih.writes hm) (by simp) (by simp)
        · exact hrun
    · push Not at hl
      have hb := step_beside hs hl
      constructor
      · intro u id hu
        have hold : (Hub.txs cfg.world).holder id = some u ∧ l ≠ .finish u ∧ l ≠ .crash u := by
          cases hs with
          | start => exact ⟨hu, by simp, by simp⟩
          | op => exact absurd rfl (hl _ _ _)
          | finish | crash =>
            obtain ⟨hu, hne⟩ := Txs.clear_holder_iff.mp hu
            exact ⟨hu, by simp [Ne.symm hne], by simp [Ne.symm hne]⟩
          | @env e w hw =>
            refine ⟨?_, by simp, by simp⟩
            cases e with
            | tick clock =>
              simp only [system, Hub.env, Option.ite_none_right_eq_some, Option.some.injEq] at hw
              rw [← hw.2] at hu
              exact hu
            | kill token =>
              cases hw
              exact hu
        exact stays (ih.holder hold.1) hold.2.1 hold.2.2
      · intro u wr hm
        obtain ⟨hm, hf, hc⟩ := hb.writes hm
        exact stays (ih.writes hm) hf hc

/-! ## The scene of a call -/

/-- What a call with nothing beside it finds: the tables, its own open writes, and no lock of another
call. -/
structure Scene (t : Tid) (T : Accounts) (cs : Credentials) (ws : List Write) (w : Hub) : Prop where
  accounts : w.accounts = T
  credentials : w.credentials = cs
  writes : w.txs.writes t = ws
  free : ∀ id, w.txs.FreeFor t id

theorem Scene.of_quiet (h₀ : w₀.Idle) (hr : Reach (system lib svc) (· = w₀) ok cfg)
    (hq : ∀ u, (cfg.threads u).Quiet) (t : Tid) :
    Scene t (Hub.accounts cfg.world) (Hub.credentials cfg.world) [] cfg.world where
  accounts := rfl
  credentials := rfl
  writes := by
    refine List.eq_nil_iff_forall_not_mem.mpr fun wr hm => ?_
    exact (owned_of_reach h₀ hr).writes hm (hq t)
  free id := by
    left
    refine Option.eq_none_iff_forall_ne_some.mpr fun u hu => ?_
    exact (owned_of_reach h₀ hr).holder hu (hq u)

/-- The id of every row was given out. -/
def Hub.Given (w : Hub) : Prop := ∀ id, w.accounts.lookup id ≠ none → id ∈ w.used

theorem given_of_reach (h₀ : w₀.Idle) (hr : Reach (system lib svc) (· = w₀) ok cfg) :
    Hub.Given cfg.world := by
  intro id hid
  have hm := minted_of_reach h₀ hr
  rcases hm.owned (Hub.status?_eq_none.not.mpr hid) with hold | ⟨u, hu, -⟩
  · exact hm.old hold
  · exact hm.used hu

/-- The environment moves the clock forward, and it touches nothing else that a call sees. -/
structure Moved (w w' : Hub) : Prop where
  accounts : w'.accounts = w.accounts
  credentials : w'.credentials = w.credentials
  txs : w'.txs = w.txs
  used : w'.used = w.used

theorem moved_of_around {envs : Env → Prop} {w w' : Hub} (h : Around (system lib svc) envs w w') :
    Moved w w' := by
  induction h with
  | refl => exact ⟨rfl, rfl, rfl, rfl⟩
  | tail _ hstep ih =>
    obtain ⟨e, -, he⟩ := hstep
    cases e with
    | tick clock =>
      simp only [system, Hub.env, Option.ite_none_right_eq_some, Option.some.injEq] at he
      obtain ⟨-, rfl⟩ := he
      exact ⟨ih.accounts, ih.credentials, ih.txs, ih.used⟩
    | kill token =>
      cases he
      exact ⟨ih.accounts, ih.credentials, ih.txs, ih.used⟩

section

variable {t : Tid} {T : Accounts} {cs : Credentials} {ws : List Write} {w w' : Hub} {envs : Env → Prop}

theorem Scene.around (h : Around (system lib svc) envs w w') (hs : Scene t T cs ws w) :
    Scene t T cs ws w' := by
  have hm := moved_of_around h
  constructor
  · rw [hm.accounts, hs.accounts]
  · rw [hm.credentials, hs.credentials]
  · rw [hm.txs, hs.writes]
  · rw [hm.txs]
    exact hs.free

theorem Hub.Given.around (h : Around (system lib svc) envs w w') (hg : w.Given) : w'.Given := by
  have hm := moved_of_around h
  intro id hid
  rw [hm.used]
  rw [hm.accounts] at hid
  exact hg id hid

theorem Scene.queue (h : Scene t T cs ws w) (wr : Write) : Scene t T cs (ws ++ [wr]) (w.queue t wr) where
  accounts := h.accounts
  credentials := h.credentials
  writes := by simp [Hub.queue, h.writes]
  free := h.free

theorem Scene.lock (h : Scene t T cs ws w) (id : Uuid) : Scene t T cs ws (w.lock t id) where
  accounts := h.accounts
  credentials := h.credentials
  writes := h.writes
  free x := by
    simp only [Txs.FreeFor, Hub.lock, Txs.lock_holder]
    split
    · exact .inr rfl
    · exact h.free x

theorem Scene.commit (h : Scene t T cs ws w) : Scene t (ws.foldl Write.run T) cs [] (w.commit t) where
  accounts := by
    change ((w.txs.writes t).foldl Hub.apply w).accounts = _
    rw [Hub.foldl_accounts, h.accounts, h.writes]
  credentials := by
    change ((w.txs.writes t).foldl Hub.apply w).credentials = _
    rw [(Hub.foldl_beside _ w).credentials, h.credentials]
  writes := Txs.clear_writes_self
  free id := by
    left
    change (w.txs.clear t).holder id = none
    rcases h.free id with hf | hf <;> simp [Txs.clear, hf]

end

/-! ## `authorize` -/

/-- No statement fails. -/
def answered (_ : Hub) (op : Sig.Op) (ans : Sig.Ans op) : Prop := Answered op ans

section

variable {t : Tid} {T : Accounts} {cs : Credentials} {ws : List Write} {w : Hub} {envs : Env → Prop}
  {stuck : Past → Op → Prop} {past : Past}

theorem deleteRows_lone {ids : List Uuid} (hw : Scene t T cs ws w) (hids : ∀ id ∈ ids, T.lookup id ≠ none)
    {Q : Except OauthError Unit → Hub × Past → Prop}
    (hQ : ∀ w' past', Scene t T cs (ws ++ ids.map .delete) w' → Q (.ok ()) (w', past')) :
    Meets (.lone (Hub.next t) (Around (system lib svc) envs) answered stuck) (deleteRows ids).run (w, past)
      Q := by
  induction ids generalizing w ws past with
  | nil => exact hQ _ _ (by simpa using hw)
  | cons id ids ih =>
    obtain ⟨hid, hrest⟩ := List.forall_mem_cons.mp hids
    obtain ⟨r, hr⟩ := Option.ne_none_iff_exists'.mp hid
    simp only [deleteRows, sql, ask, Prog.ask, meets_run_bind, meets_run_orFail]
    refine meets_lone (S := Sig) (I := Scene t T cs ws) Scene.around hw ?_ ?_
    · intro w₁ h₁
      refine ⟨.ok (1 : Nat), (w₁.lock t id).queue t (.delete id), rfl, ?_⟩
      simp only [Hub.next, h₁.accounts, hr, h₁.free id, and_self, if_true]
    · rintro w₁ (err | n) w₂ h₁ hans hnext
      · cases hans
      · simp only [Hub.next, h₁.accounts, hr, h₁.free id, and_true, Option.ite_none_right_eq_some,
          Option.some.injEq] at hnext
        obtain ⟨-, rfl⟩ := hnext
        refine ih ((h₁.lock id).queue _) hrest fun w' past' hw' => hQ w' past' ?_
        simpa using hw'

/-- The table after `authorize` replaced the rows of the scope by a new one. -/
def Replaced (T : Accounts) (row : NewAccount) (T' : Accounts) : Prop :=
  ∀ x, T'.lookup x = if x = row.id then some row.toAccount
    else (T.lookup x).filter fun r => r.key ≠ (row.provider, row.accountRef)

theorem replaced_of_writes {row : NewAccount} {ids : List Uuid}
    (hids : ∀ id, id ∈ ids ↔ ∃ r, T.lookup id = some r ∧ r.key = (row.provider, row.accountRef)) :
    Replaced T row ((ids.map Write.delete ++ [Write.insert row]).foldl Write.run T) := by
  intro x
  rw [List.foldl_append, List.foldl_cons, List.foldl_nil, Write.run, Table.lookup_insert_ite,
    foldl_deletes]
  split
  · rfl
  by_cases hx : x ∈ ids
  · obtain ⟨r, hr, hk⟩ := (hids x).mp hx
    simp [hx, hr, Option.filter, hk]
  · rw [if_neg hx]
    cases hr : T.lookup x with
    | none => rfl
    | some r =>
      have hk : r.key ≠ (row.provider, row.accountRef) := fun hk => hx ((hids x).mpr ⟨r, hr, hk⟩)
      simp [Option.filter, hk]

theorem replaceRow_lone {row : NewAccount} (hw : Scene t T cs [] w) (hrow : T.lookup row.id = none)
    {Q : Except OauthError Unit → Hub × Past → Prop}
    (hQ : ∀ T' w' past', Replaced T row T' → Scene t T' cs [] w' → Q (.ok ()) (w', past')) :
    Meets (.lone (Hub.next t) (Around (system lib svc) envs) answered stuck) (replaceRow row).run (w, past)
      Q := by
  simp only [replaceRow, begin, commit, sql, ask, Prog.ask, meets_run_bind, meets_run_orFail]
  refine meets_lone (S := Sig) (I := Scene t T cs []) Scene.around hw ?_ ?_
  · exact fun w₁ h₁ => ⟨.ok (), _, rfl, rfl⟩
  rintro w₁ (err | ⟨⟩) w₂ h₁ hans hnext
  · cases hans
  cases hnext
  refine meets_lone (S := Sig) (I := Scene t T cs []) Scene.around
    ⟨h₁.accounts, h₁.credentials, h₁.writes, h₁.free⟩ ?_ ?_
  · exact fun w₂ h₂ => ⟨.ok (w₂.matching row.provider row.accountRef), w₂, rfl, by simp [Hub.next]⟩
  rintro w₂ (err | ids) w₃ h₂ hans hnext
  · cases hans
  simp only [Hub.next, Option.ite_none_right_eq_some, Option.some.injEq] at hnext
  obtain ⟨hperm, rfl⟩ := hnext
  -- The snapshot has the rows of the key that were there when it was read.
  have hids : ∀ id, id ∈ ids ↔ ∃ r, T.lookup id = some r ∧ r.key = (row.provider, row.accountRef) := by
    intro id
    rw [hperm.mem_iff, Hub.mem_matching, h₂.accounts]
  refine deleteRows_lone h₂ (fun id hid => ?_) ?_
  · obtain ⟨r, hr, -⟩ := (hids id).mp hid
    exact Option.ne_none_iff_exists'.mpr ⟨r, hr⟩
  intro w₃ past₃ h₃
  refine meets_lone (S := Sig) (I := Scene t T cs _) Scene.around h₃ ?_ ?_
  · exact fun w₄ h₄ => ⟨.ok (), w₄.queue t (.insert row), rfl, by simp [Hub.next, h₄.accounts, hrow]⟩
  rintro w₄ (err | ⟨⟩) w₅ h₄ hans hnext
  · cases hans
  simp only [Hub.next, h₄.accounts, hrow, if_true, Option.some.injEq] at hnext
  subst hnext
  refine meets_lone (S := Sig) (I := Scene t T cs _) Scene.around (h₄.queue _) ?_ ?_
  · exact fun w₅ h₅ => ⟨.ok (), _, rfl, rfl⟩
  rintro w₅ (err | ⟨⟩) w₆ h₅ hans hnext
  · cases hans
  cases hnext
  exact hQ _ _ _ (replaced_of_writes hids) h₅.commit

theorem mintText_lone {n : Nat} (hw : Scene t T cs ws w ∧ w.Given)
    {Q : Except OauthError String → Hub × Past → Prop}
    (hQ : ∀ bytes w', bytes.length = n → Scene t T cs ws w' ∧ w'.Given →
      Q (.ok (lib.encode bytes)) (w', ⟨.randomBytes n, bytes⟩ :: past)) :
    Meets (.lone (Hub.next t) (Around (system lib svc) envs) answered stuck) (mintText lib n).run (w, past)
      Q := by
  simp only [mintText, ask, Prog.ask, meets_run_bind, meets_run_answer]
  refine meets_lone (S := Sig) (I := fun w => Scene t T cs ws w ∧ w.Given)
    (fun h hI => ⟨hI.1.around h, hI.2.around h⟩) hw ?_ ?_
  · exact fun w₁ h₁ => ⟨List.replicate n 0, w₁, rfl, by simp [Hub.next]⟩
  · intro w₁ bytes w₂ h₁ _ hnext
    simp only [Hub.next, Option.ite_none_right_eq_some, Option.some.injEq] at hnext
    obtain ⟨hlen, rfl⟩ := hnext
    exact hQ bytes w₁ hlen h₁

/-- What the crates document, as far as an authorization relies on it: the text of a URL parses again,
base64 and serde give back what they were given, a state serializes, and the base64 of some bytes is not
empty. -/
structure Crates.Documented (lib : Crates) (s : StateSigner) : Prop where
  reparses : lib.toUrlCrate.Reparses
  roundTrips : s.RoundTrips lib
  serializes : ∀ state, ∃ payload, lib.stateToVec state = .ok payload
  nonempty : ∀ bytes, bytes ≠ [] → lib.encode bytes ≠ ""

theorem mint_ok {s : StateSigner} (hdoc : lib.Documented s) (state : OAuthState) :
    ∃ token, s.mint lib state = .ok token := by
  obtain ⟨payload, hpayload⟩ := hdoc.serializes state
  unfold StateSigner.mint
  rw [hpayload]
  exact ⟨_, rfl⟩

/-- The verifier that the provider's adapter asks for. -/
def IntegrationsOauthService.Admitted.Fits (a : Admitted) (verifier : Option String) : Prop :=
  if a.adapter.pkceS256 then ∃ v, verifier = some v ∧ v ≠ "" else verifier = none

/-- An authorization that has just been started: the URL carries the signed token of the one row of the
scope, which is pending. -/
structure Started (lib : Crates) (svc : IntegrationsOauthService) (a : Admitted) (resp : AuthorizeResponse)
    (state : OAuthState) (token : String) (past : Past) : Prop where
  account : state.accountId = resp.accountId
  provider : state.provider = a.provider
  nonce : ∃ bytes, ⟨.randomBytes 16, bytes⟩ ∈ past ∧ state.nonce = lib.encode bytes
  expiry : ∃ now, ⟨.utcNow, now⟩ ∈ past ∧ state.exp = timestamp now + stateTtlSeconds
  minted : svc.signer.mint lib state = .ok token
  url : ∃ url verifier, resp.authorizeUrl =
    lib.appendPairs url (svc.authorizePairs lib a verifier state.nonce token)

/-- The table after a request was started. -/
def OpenedFor (a : Admitted) (id : Uuid) (T T' : Accounts) : Prop :=
  ∃ verifier, a.Fits verifier ∧ Replaced T ⟨id, a.provider, a.accountRef, a.scopes, verifier⟩ T'

theorem authorize_url_parses (hreparses : lib.toUrlCrate.Reparses) {overrides : EndpointOverrides}
    (hb : BuiltFrom lib.toUrlCrate overrides svc) {req : AuthorizeRequest} {a : Admitted}
    (ha : svc.admitRequest lib req = .ok a) :
    lib.parse (lib.asStr a.endpoints.authorize.url) = .ok a.endpoints.authorize.url := by
  obtain ⟨-, -, -, hends⟩ := admitRequest_ok ha
  have hres := hb.endpoints _ _ (endpointsFor_ok hends)
  obtain ⟨adapter, -, ⟨s, hs⟩, -, -⟩ := ValidatedEndpoints.resolve_ok hres
  exact hreparses s _ (validateEndpoint_ok hs).1

theorem authorizeAdmitted_lone (hdoc : lib.Documented svc.signer) {overrides : EndpointOverrides}
    (hb : BuiltFrom lib.toUrlCrate overrides svc) {req : AuthorizeRequest} {a : Admitted}
    (ha : svc.admitRequest lib req = .ok a) {verifier : Option String} (hv : a.Fits verifier)
    (hw : Scene t T cs [] w ∧ w.Given) :
    Meets (.lone (Hub.next t) (Around (system lib svc) envs) answered stuck)
      (svc.authorizeAdmitted lib a verifier).run (w, past) fun r s => ∃ resp state token T', r = .ok resp ∧
        Started lib svc a resp state token s.2 ∧ OpenedFor a resp.accountId T T' ∧
        Scene t T' cs [] s.1 := by
  simp only [authorizeAdmitted, ask, Prog.ask, meets_run_bind, meets_run_answer]
  refine meets_lone (S := Sig) (I := fun w => Scene t T cs [] w ∧ w.Given)
    (fun h hI => ⟨hI.1.around h, hI.2.around h⟩) hw ?_ ?_
  · intro w₁ _
    obtain ⟨id, hid⟩ := Infinite.exists_notMem_finset w₁.used.toFinset
    exact ⟨id, _, rfl, if_neg (List.mem_toFinset.not.mp hid)⟩
  rintro w₁ id w₂ ⟨h₁, hg₁⟩ - hnext
  obtain ⟨hid, rfl⟩ := Hub.next_newUuid hnext
  -- The id was never drawn before, so no row is under it.
  have hnew : T.lookup id = none := by
    by_contra hne
    exact hid (hg₁ id (by rwa [h₁.accounts]))
  rw [meets_ret]
  have h₂ : Scene t T cs [] { w₁ with used := id :: w₁.used } :=
    ⟨h₁.accounts, h₁.credentials, h₁.writes, h₁.free⟩
  refine replaceRow_lone h₂ hnew ?_
  intro T' w₃ past₃ hT' h₃
  simp only [mintText, utcNow, ask, Prog.ask, meets_run_bind, meets_run_answer]
  refine meets_lone (S := Sig) (I := Scene t T' cs []) Scene.around h₃ ?_ ?_
  · exact fun w₄ h₄ => ⟨List.replicate 16 0, w₄, rfl, by simp [Hub.next]⟩
  intro w₄ bytes w₅ h₄ _ hnext
  simp only [Hub.next, Option.ite_none_right_eq_some, Option.some.injEq] at hnext
  obtain ⟨-, rfl⟩ := hnext
  refine meets_lone (S := Sig) (I := Scene t T' cs []) Scene.around h₄ ?_ ?_
  · exact fun w₅ h₅ => ⟨w₅.clock, w₅, rfl, if_pos rfl⟩
  intro w₅ now w₆ h₅ _ hnext
  simp only [Hub.next, Option.ite_none_right_eq_some, Option.some.injEq] at hnext
  obtain ⟨rfl, rfl⟩ := hnext
  simp only [meets_ret, meets_run_ofExcept]
  obtain ⟨token, hmint⟩ := mint_ok hdoc
    ⟨id, a.provider, lib.encode bytes, timestamp w₅.clock + stateTtlSeconds⟩
  simp only [hmint, authorize_url_parses hdoc.reparses hb ha, meets_run_pure]
  exact ⟨_, _, token, T', rfl,
    ⟨rfl, rfl, ⟨bytes, List.mem_cons_of_mem _ List.mem_cons_self, rfl⟩, ⟨w₅.clock, List.mem_cons_self, rfl⟩,
      hmint, _, verifier, rfl⟩, ⟨verifier, hv, hT'⟩, h₅⟩

theorem authorize_lone (hdoc : lib.Documented svc.signer) {overrides : EndpointOverrides}
    (hb : BuiltFrom lib.toUrlCrate overrides svc) {req : AuthorizeRequest} {a : Admitted}
    (ha : svc.admitRequest lib req = .ok a) (hw : Scene t T cs [] w ∧ w.Given) :
    Meets (.lone (Hub.next t) (Around (system lib svc) envs) answered stuck)
      (svc.authorize lib req).run (w, past) fun r s => ∃ resp state token T', r = .ok resp ∧
        Started lib svc a resp state token s.2 ∧ OpenedFor a resp.accountId T T' ∧
        Scene t T' cs [] s.1 := by
  rw [authorize, meets_run_bind, meets_run_ofExcept, ha]
  simp only [meets_run_bind, meets_run_ite, meets_run_map]
  refine ⟨fun hp => ?_, fun hp => ?_⟩
  · refine mintText_lone hw fun bytes w' hlen hw' => ?_
    refine authorizeAdmitted_lone hdoc hb ha ?_ hw'
    rw [Admitted.Fits, if_pos hp]
    refine ⟨_, rfl, hdoc.nonempty bytes ?_⟩
    rintro rfl
    cases hlen
  · refine authorizeAdmitted_lone hdoc hb ha ?_ hw
    rw [Admitted.Fits, if_neg hp]

end

end BackboneIntegrations.OAuth
