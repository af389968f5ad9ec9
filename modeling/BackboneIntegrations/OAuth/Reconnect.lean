import BackboneIntegrations.OAuth.Scene

/-!
# A completion with nothing beside it

An `authorize` and a `complete` one after the other, from whatever the calls before them have left
behind. What decides how they end is the provider's answer alone.
-/

open Interleave

namespace BackboneIntegrations.OAuth

open IntegrationsOauthService

variable {lib : Crates} {svc : IntegrationsOauthService}

/-! ## The other side -/

/-- The answers of a store that can be reached, as its port documents them: an issue is refused only
because of a current credential, and a rotate only where there is none. -/
def Hub.Serves (w : Hub) : (op : Sig.Op) → Sig.Ans op → Prop
  | .issue scope .., .error f => (w.current scope).isSome ∧ f.code = OAuthCredentialFailure.codeDuplicateActive
  | .rotate scope .., .error _ => w.current scope = none
  | op, ans => w.StorePort op ans

/-- No statement fails, the store can be reached, and the provider answers an exchange with `response`
and an identity read with `identity`. -/
def granted (response : TokenResponse) (identity : IdentityClaims) (w : Hub) :
    (op : Sig.Op) → Sig.Ans op → Prop
  | .exchange .., ans => ans = .ok response
  | .fetchIdentity .., ans => ans = .ok identity
  | op, ans => Answered op ans ∧ w.Serves op ans

/-- The time passes only within the lifetime of a state. -/
def within (exp : Int) : Env → Prop
  | .tick clock => timestamp clock < exp
  | .kill _ => True

instance (w : Hub) (op : Sig.Op) (ans : Sig.Ans op) : Decidable (w.Serves op ans) := by
  unfold Hub.Serves
  split <;> infer_instance

instance (response : TokenResponse) (identity : IdentityClaims) (w : Hub) (op : Sig.Op)
    (ans : Sig.Ans op) : Decidable (granted response identity w op ans) := by
  unfold granted
  split <;> infer_instance

instance (exp : Int) : DecidablePred (within exp)
  | .tick clock => inferInstanceAs (Decidable (timestamp clock < exp))
  | .kill _ => .isTrue trivial

/-- When the call read the clock after its exchange. -/
def redeemedAt : Past → Option Time
  | ⟨.utcNow, now⟩ :: ⟨.exchange .., .ok _⟩ :: _ => some now
  | _ :: h => redeemedAt h
  | [] => none

/-- The panic of `chrono` on an expiry that it cannot hold. -/
def Overflows (secs : Int) (h : Past) (op : Op) : Prop :=
  op = .panic ∧ ∃ now, redeemedAt h = some now ∧ addSeconds now secs = none

/-! ## What is left of a scope -/

/-- The scope has one current credential, and it expires at `e`. -/
def Single (cs : Credentials) (scope : CredentialScope) (e : Time) : Prop :=
  ∃ c, cs.filter (·.IsCurrent scope) = [c] ∧ c.expiresAt = e

theorem current_eq_none_iff {cs : Credentials} {scope : CredentialScope} :
    cs.current scope = none ↔ cs.filter (·.IsCurrent scope) = [] := by
  simp [Credentials.current, List.find?_eq_none, List.filter_eq_nil_iff]

theorem single_store {cs : Credentials} {scope : CredentialScope}
    (h : cs.filter (·.IsCurrent scope) = []) (bundle : TokenBundle) (e : Time) :
    Single (⟨scope, purposeOauthToken, bundle, e, true⟩ :: cs) scope e := by
  refine ⟨⟨scope, purposeOauthToken, bundle, e, true⟩, ?_, rfl⟩
  rw [List.filter_cons_of_pos (by simp [Credential.IsCurrent]), h]

/-- The pending row of an authorization is the one row of its scope. -/
structure Awaits (a : Admitted) (id : Uuid) (T : Accounts) : Prop where
  row : ∃ verifier, a.Fits verifier ∧
    T.lookup id = some (NewAccount.toAccount ⟨id, a.provider, a.accountRef, a.scopes, verifier⟩)
  only : ∀ x r, T.lookup x = some r → r.key = (a.provider, a.accountRef) → x = id

theorem OpenedFor.awaits {a : Admitted} {id : Uuid} {T T' : Accounts} (h : OpenedFor a id T T') :
    Awaits a id T' := by
  obtain ⟨verifier, hfits, hrep⟩ := h
  constructor
  · exact ⟨verifier, hfits, by rw [hrep id, if_pos rfl]⟩
  · intro x r hr hk
    by_contra hne
    rw [hrep x, if_neg hne] at hr
    obtain ⟨-, hkey⟩ := Option.filter_eq_some_iff.mp hr
    simp [hk] at hkey

/-- The account is connected: its row is the one row of the scope, it is active, and it expires with the
one current credential of the scope. -/
structure Connected (co : Uuid) (a : Admitted) (id : Uuid) (w : Hub) : Prop where
  row : ∃ r e, (∀ x r', w.accounts.lookup x = some r' ∧ r'.key = (a.provider, a.accountRef) ↔
      x = id ∧ r' = r) ∧ r.status = .active ∧ r.expiresAt = some e ∧
    Single w.credentials ⟨co, a.provider, a.accountRef⟩ e

/-! ## `complete` -/

/-- What a completion finds: the tables, no locks, and a clock within the state's lifetime. -/
structure Calm (exp : Int) (T : Accounts) (cs : Credentials) (w : Hub) : Prop where
  accounts : w.accounts = T
  credentials : w.credentials = cs
  unlocked : ∀ id, w.txs.holder id = none
  live : timestamp w.clock < exp

section

variable {t : Tid} {exp secs : Int} {T : Accounts} {cs : Credentials} {w w' : Hub} {past : Past}
  {response : TokenResponse} {identity : IdentityClaims} {a : Admitted} {id co : Uuid}

theorem live_of_around (h : Around (system lib svc) (within exp) w w') (hw : timestamp w.clock < exp) :
    timestamp w'.clock < exp := by
  induction h with
  | refl => exact hw
  | tail _ hstep ih =>
    obtain ⟨e, hwithin, he⟩ := hstep
    cases e with
    | tick clock =>
      simp only [system, Hub.env, Option.ite_none_right_eq_some, Option.some.injEq] at he
      obtain ⟨-, rfl⟩ := he
      exact hwithin
    | kill token =>
      cases he
      exact ih

theorem Calm.around (h : Around (system lib svc) (within exp) w w') (hw : Calm exp T cs w) :
    Calm exp T cs w' := by
  have hm := moved_of_around h
  constructor
  · rw [hm.accounts, hw.accounts]
  · rw [hm.credentials, hw.credentials]
  · rw [hm.txs]
    exact hw.unlocked
  · exact live_of_around h hw.live

/-- The contract of a completion: it may stop only at an expiry that `chrono` cannot hold. -/
abbrev grantContract (lib : Crates) (svc : IntegrationsOauthService) (t : Tid) (exp secs : Int)
    (response : TokenResponse) (identity : IdentityClaims) : Contract Sig (Hub × Past) :=
  .lone (Hub.next t) (Around (system lib svc) (within exp)) (granted response identity) (Overflows secs)

theorem verify_lone {token : String} {state : OAuthState}
    (htoken : svc.signer.binding lib token = .ok state) (hw : Calm state.exp T cs w)
    {Q : Except OauthError OAuthState → Hub × Past → Prop}
    (hQ : ∀ w' past', Calm state.exp T cs w' → Q (.ok state) (w', past')) :
    Meets (grantContract lib svc t state.exp secs response identity) (svc.verify lib token).run (w, past)
      Q := by
  simp only [verify, utcNow, ask, Prog.ask, meets_run_bind, meets_run_ofExcept, htoken, meets_run_answer]
  refine meets_lone (S := Sig) (I := Calm state.exp T cs) Calm.around hw ?_ ?_
  · exact fun w₁ h₁ => ⟨w₁.clock, w₁, ⟨rfl, rfl⟩, if_pos rfl⟩
  intro w₁ now w₂ h₁ _ hnext
  simp only [Hub.next, Option.ite_none_right_eq_some, Option.some.injEq] at hnext
  obtain ⟨rfl, rfl⟩ := hnext
  rw [meets_ret, if_neg (Int.not_le.mpr h₁.live)]
  exact hQ _ _ h₁

theorem pendingAccount_lone {req : AuthorizeRequest} (ha : svc.admitRequest lib req = .ok a)
    {state : OAuthState} (hp : state.provider = a.provider) (hT : Awaits a state.accountId T)
    (hw : Calm exp T cs w)
    {Q : Except OauthError (AccountRow × ProviderAdapter × ValidatedEndpoints × String) → Hub × Past → Prop}
    (hQ : ∀ account w' past', account.provider = a.provider → account.accountRef = a.accountRef →
      Calm exp T cs w' → Q (.ok (account, a.adapter, a.endpoints, a.clientId)) (w', past')) :
    Meets (grantContract lib svc t exp secs response identity) (svc.pendingAccount lib state).run (w, past)
      Q := by
  obtain ⟨-, -, hadapter, hends⟩ := admitRequest_ok ha
  obtain ⟨verifier, -, hrow⟩ := hT.row
  simp only [pendingAccount, fetchAccount, sql, ask, Prog.ask, meets_run_bind, meets_run_orFail]
  refine meets_lone (S := Sig) (I := Calm exp T cs) Calm.around hw ?_ ?_
  · exact fun w₁ h₁ => ⟨.ok _, w₁, ⟨rfl, rfl⟩, if_pos rfl⟩
  rintro w₁ (err | found) w₂ h₁ hans hnext
  · cases hans.1
  simp only [Hub.next, Option.ite_none_right_eq_some, Option.some.injEq, h₁.accounts, hrow,
    Option.map_some] at hnext
  obtain ⟨rfl, rfl⟩ := hnext
  rw [meets_ret]
  simp only [Except.mapError, Account.toRow, NewAccount.toAccount, hp, ne_eq, not_true_eq_false, if_false,
    hadapter, hends, meets_run_bind, meets_run_ofExcept, meets_run_pure]
  exact hQ _ _ _ rfl rfl h₁

theorem storedVerifier_lone (hT : Awaits a id T) (hpkce : a.adapter.pkceS256 = true)
    (hw : Calm exp T cs w) {Q : Except OauthError String → Hub × Past → Prop}
    (hQ : ∀ v w' past', Calm exp T cs w' → Q (.ok v) (w', past')) :
    Meets (grantContract lib svc t exp secs response identity) (storedVerifier id).run (w, past) Q := by
  obtain ⟨verifier, hfits, hrow⟩ := hT.row
  rw [Admitted.Fits, if_pos hpkce] at hfits
  obtain ⟨v, rfl, hv⟩ := hfits
  simp only [storedVerifier, sql, ask, Prog.ask, meets_run_bind, meets_run_orFail]
  refine meets_lone (S := Sig) (I := Calm exp T cs) Calm.around hw ?_ ?_
  · exact fun w₁ h₁ => ⟨.ok _, w₁, ⟨rfl, rfl⟩, if_pos rfl⟩
  rintro w₁ (err | found) w₂ h₁ hans hnext
  · cases hans.1
  simp only [Hub.next, Option.ite_none_right_eq_some, Option.some.injEq, h₁.accounts, hrow,
    Option.map_some] at hnext
  obtain ⟨rfl, rfl⟩ := hnext
  have hkeep : ((some (some v) : Option (Option String)).join.filter (! ·.isEmpty)) = some v := by
    simp [Option.filter, hv]
  rw [meets_ret]
  simp only [Except.mapError, NewAccount.toAccount, hkeep, meets_run_pure]
  exact hQ v _ _ h₁

theorem identify_lone {req : CompleteRequest} {state : OAuthState} {account : AccountRow}
    {verifier : Option String} (hlife : response.lifetime = some secs)
    (hchecks : verifyAudienceAndNonce lib identity response.idToken a.clientId state.nonce = .ok ())
    (hw : Calm exp T cs w) {Q : Except OauthError Grant → Hub × Past → Prop}
    (hok : EmailMatches identity account.accountRef svc.sharedMailboxBypass → ∀ now e w' past',
      addSeconds now secs = some e → redeemedAt past' = some now → Calm exp T cs w' →
      Q (.ok ⟨state, account, a.adapter, response, now, e⟩) (w', past'))
    (herr : ¬ EmailMatches identity account.accountRef svc.sharedMailboxBypass → ∀ now e err w' past',
      addSeconds now secs = some e → redeemedAt past' = some now → Q (.error err) (w', past')) :
    Meets (grantContract lib svc t exp secs response identity)
      (svc.identify lib req state account a.adapter a.endpoints a.clientId verifier).run (w, past) Q := by
  simp only [identify, utcNow, ask, Prog.ask, meets_run_bind, meets_run_orFail, meets_run_answer]
  refine meets_lone (S := Sig) (I := Calm exp T cs) Calm.around hw ?_ ?_
  · exact fun w₁ h₁ => ⟨.ok response, w₁, rfl, rfl⟩
  rintro w₁ _ w₂ h₁ rfl hnext
  cases hnext
  rw [meets_ret]
  refine meets_lone (S := Sig) (I := Calm exp T cs) Calm.around h₁ ?_ ?_
  · exact fun w₂ h₂ => ⟨w₂.clock, w₂, ⟨rfl, rfl⟩, if_pos rfl⟩
  intro w₂ now w₃ h₂ _ hnext
  simp only [Hub.next, Option.ite_none_right_eq_some, Option.some.injEq] at hnext
  obtain ⟨rfl, rfl⟩ := hnext
  rw [meets_ret]
  -- The call goes on behind the expiry unless `chrono` cannot hold it, and there it stops.
  refine meets_lifetime ?_ ?_ ?_
  · intro secs' hl hnone
    rw [hlife] at hl
    cases hl
    exact .inl ⟨rfl, w₂.clock, rfl, hnone⟩
  · intro hnone
    rw [hlife] at hnone
    cases hnone
  intro secs' e hl he
  rw [hlife] at hl
  cases hl
  simp only [meets_run_bind, meets_run_orFail]
  refine meets_lone (S := Sig) (I := Calm exp T cs) Calm.around h₂ ?_ ?_
  · exact fun w₃ h₃ => ⟨.ok identity, w₃, rfl, rfl⟩
  rintro w₃ _ w₄ h₃ rfl hnext
  cases hnext
  rw [meets_ret]
  simp only [Except.mapError, meets_run_ofExcept, hchecks]
  cases hm : verifyEmailMatch lib identity account.accountRef svc.sharedMailboxBypass with
  | ok u =>
    refine hok (verifyEmailMatch_ok.mp hm) w₂.clock e _ _ he ?_ h₃
    rfl
  | error err =>
    refine herr (fun hmatch => ?_) w₂.clock e err _ _ he rfl
    rw [verifyEmailMatch_ok.mpr hmatch] at hm
    cases hm

theorem carriedRefresh_lone {g : Grant} (hw : Calm exp T cs w)
    {Q : Except OauthError (Option String) → Hub × Past → Prop}
    (hQ : ∀ refresh w' past', redeemedAt past' = redeemedAt past → Calm exp T cs w' →
      Q (.ok refresh) (w', past')) :
    Meets (grantContract lib svc t exp secs response identity) (carriedRefresh co g).run (w, past) Q := by
  unfold carriedRefresh
  cases g.response.refreshToken with
  | some r => exact hQ _ _ _ rfl hw
  | none =>
    simp only [ask, Prog.ask, meets_run_bind, meets_run_answer]
    refine meets_lone (S := Sig) (I := Calm exp T cs) Calm.around hw ?_ ?_
    · intro w₁ _
      refine ⟨.error ⟨OAuthCredentialFailure.codeTransport, ""⟩, w₁, ⟨rfl, ?_⟩, rfl⟩
      simp [Hub.Serves, Hub.StorePort, OAuthCredentialFailure.codeTransport,
        OAuthCredentialFailure.codeExpired, OAuthCredentialFailure.codeNotFound,
        OAuthCredentialFailure.codeNotActive]
    rintro w₁ (f | prior) w₂ h₁ hans hnext
    all_goals
      cases hnext
      exact hQ _ _ _ rfl h₁

theorem storeBundle_lone {g : Grant} {refresh : Option String} (hw : Calm exp T cs w)
    {Q : Except OauthError Unit → Hub × Past → Prop}
    (hQ : ∀ w' cs' past', redeemedAt past' = redeemedAt past → Single cs' (g.scope co) g.expiresAt →
      Calm exp T cs' w' → Q (.ok ()) (w', past')) :
    Meets (grantContract lib svc t exp secs response identity) (storeBundle co g refresh).run (w, past)
      Q := by
  have stored : ∀ {w₁ : Hub} {bundle : TokenBundle} {cs₁ : Credentials}, Calm exp T cs₁ w₁ →
      Calm exp T (⟨g.scope co, purposeOauthToken, bundle, g.expiresAt, true⟩ :: cs₁)
        (w₁.store (g.scope co) purposeOauthToken bundle g.expiresAt) := by
    intro w₁ bundle cs₁ h₁
    refine ⟨h₁.accounts, ?_, h₁.unlocked, h₁.live⟩
    rw [Hub.store, h₁.credentials]
  simp only [storeBundle, ask, Prog.ask, meets_run_bind, meets_run_answer]
  refine meets_lone (S := Sig) (I := Calm exp T cs) Calm.around hw ?_ ?_
  · intro w₁ _
    cases hc : w₁.current (g.scope co) with
    | none => exact ⟨.ok (0 : Nat), _, ⟨rfl, by simp [Hub.Serves, Hub.StorePort, hc]⟩, rfl⟩
    | some c =>
      refine ⟨.error ⟨OAuthCredentialFailure.codeDuplicateActive, ""⟩, w₁, ⟨rfl, ?_⟩, rfl⟩
      simp [Hub.Serves, hc]
  -- The store refuses the issue only where it has a bundle already, and then it takes the rotate.
  rintro w₁ (f | cid) w₂ h₁ hans hnext
  · cases hnext
    obtain ⟨hsome, hcode⟩ := hans.2
    rw [meets_ret]
    simp only [hcode, if_true, meets_run_bind, meets_run_orFail]
    refine meets_lone (S := Sig) (I := Calm exp T cs) Calm.around h₁ ?_ ?_
    · intro w₂ h₂
      refine ⟨.ok (0 : Nat), _, ⟨rfl, ?_⟩, rfl⟩
      change (w₂.current (g.scope co)).isSome = true
      rw [Hub.current, h₂.credentials, ← h₁.credentials]
      exact hsome
    rintro w₂ (f' | cid) w₃ h₂ hans' hnext
    · have hnone : w₂.current (g.scope co) = none := hans'.2
      rw [Hub.current, h₂.credentials, ← h₁.credentials] at hnone
      rw [Hub.current, hnone] at hsome
      cases hsome
    · cases hnext
      have hcalm : Calm exp T (cs.withdraw (g.scope co)) (w₂.withdraw (g.scope co)) := by
        refine ⟨h₂.accounts, ?_, h₂.unlocked, h₂.live⟩
        rw [Hub.withdraw, h₂.credentials]
        rfl
      exact hQ _ _ _ rfl (single_store (Credentials.filter_withdraw cs _) _ _) (stored hcalm)
  · cases hnext
    have hnone : (w₁.current (g.scope co)).isNone = true := hans.2
    rw [Option.isNone_iff_eq_none, Hub.current, h₁.credentials] at hnone
    exact hQ _ _ _ rfl (single_store (current_eq_none_iff.mp hnone) _ _) (stored h₁)

theorem Awaits.pending (hT : Awaits a id T) : ∃ r, T.lookup id = some r ∧
    r.key = (a.provider, a.accountRef) ∧ r.status = .pending := by
  obtain ⟨verifier, -, hrow⟩ := hT.row
  exact ⟨_, hrow, rfl, rfl⟩

theorem Awaits.connected (hT : Awaits a id T) {r : Account} (hr : T.lookup id = some r)
    (hkey : r.key = (a.provider, a.accountRef)) (hw : Calm exp T cs w) {scopes : String} {e now : Time}
    (hs : Single cs ⟨co, a.provider, a.accountRef⟩ e) :
    Connected co a id (w.setStatus id (.activate scopes e now) r) := by
  refine ⟨StatusUpdate.set (.activate scopes e now) r, e, fun x r' => ?_, rfl, rfl, ?_⟩
  · simp only [Hub.setStatus, Table.lookup_insert_ite, hw.accounts]
    constructor
    · rintro ⟨hx, hk⟩
      by_cases hid : x = id
      · rw [if_pos hid] at hx
        exact ⟨hid, (Option.some.inj hx).symm⟩
      · rw [if_neg hid] at hx
        exact absurd (hT.only x r' hx hk) hid
    · rintro ⟨rfl, rfl⟩
      exact ⟨if_pos rfl, hkey⟩
  · rw [Hub.setStatus, hw.credentials]
    exact hs

theorem activate_lone {g : Grant} (hT : Awaits a g.state.accountId T)
    (hw : Calm exp T cs w) (hs : Single cs ⟨co, a.provider, a.accountRef⟩ g.expiresAt)
    {Q : Except OauthError CompleteOutcome → Hub × Past → Prop}
    (hQ : ∀ o w' past', redeemedAt past' = redeemedAt past → Connected co a g.state.accountId w' →
      Q (.ok o) (w', past')) :
    Meets (grantContract lib svc t exp secs response identity) (activate g).run (w, past) Q := by
  obtain ⟨r, hr, hkey, hpending⟩ := hT.pending
  have hnext : ∀ {w₁ n}, Calm exp T cs w₁ → Hub.next t
      (.update g.state.accountId (.activate (g.response.scope.getD "") g.expiresAt g.now)) (.ok n) w₁ =
        if n = 1 then some (w₁.setStatus g.state.accountId
          (.activate (g.response.scope.getD "") g.expiresAt g.now) r)
        else none := by
    intro w₁ n h₁
    have htarget : w₁.statusTarget g.state.accountId
        (.activate (g.response.scope.getD "") g.expiresAt g.now) = some r := by
      refine Hub.statusTarget_eq_some.mpr ⟨by rw [h₁.accounts, hr], ?_⟩
      simp [StatusUpdate.guard, hpending]
    simp only [Hub.next, htarget, h₁.unlocked g.state.accountId, and_true]
  simp only [activate, sql, ask, Prog.ask, meets_run_bind, meets_run_orFail]
  refine meets_lone (S := Sig) (I := Calm exp T cs) Calm.around hw ?_ ?_
  · exact fun w₁ h₁ => ⟨.ok (1 : Nat), _, ⟨rfl, rfl⟩, (hnext h₁).trans (if_pos rfl)⟩
  rintro w₁ (err | n) w₂ h₁ hans hw₂
  · cases hans.1
  rw [hnext h₁, Option.ite_none_right_eq_some, Option.some.injEq] at hw₂
  obtain ⟨rfl, rfl⟩ := hw₂
  rw [meets_ret]
  simp only [Except.mapError, ne_eq, not_true_eq_false, if_false, meets_run_pure]
  exact hQ _ _ _ rfl (hT.connected hr hkey h₁ hs)

/-- How a completion ends. Its expiry is one that `chrono` can hold, and the provider's email decides. -/
structure Concluded (svc : IntegrationsOauthService) (co : Uuid) (a : Admitted) (id : Uuid)
    (identity : IdentityClaims) (secs : Int) (r : Except OauthError CompleteOutcome) (w : Hub)
    (past : Past) : Prop where
  expiry : ∃ now e, redeemedAt past = some now ∧ addSeconds now secs = some e
  accepted : EmailMatches identity a.accountRef svc.sharedMailboxBypass →
    (∃ o, r = .ok o) ∧ Connected co a id w
  refused : ¬ EmailMatches identity a.accountRef svc.sharedMailboxBypass → ∃ err, r = .error err

theorem gauntlet_lone {req : AuthorizeRequest} (ha : svc.admitRequest lib req = .ok a) {state : OAuthState}
    {request : CompleteRequest} (htoken : svc.signer.binding lib request.state = .ok state)
    (hp : state.provider = a.provider) (hlife : response.lifetime = some secs)
    (hchecks : verifyAudienceAndNonce lib identity response.idToken a.clientId state.nonce = .ok ())
    (hT : Awaits a state.accountId T) (hw : Calm state.exp T cs w)
    {Q : Except OauthError Grant → Hub × Past → Prop}
    (hok : EmailMatches identity a.accountRef svc.sharedMailboxBypass → ∀ account now e w' past',
      account.provider = a.provider → account.accountRef = a.accountRef →
      addSeconds now secs = some e → redeemedAt past' = some now → Calm state.exp T cs w' →
      Q (.ok ⟨state, account, a.adapter, response, now, e⟩) (w', past'))
    (herr : ¬ EmailMatches identity a.accountRef svc.sharedMailboxBypass → ∀ now e err w' past',
      addSeconds now secs = some e → redeemedAt past' = some now → Q (.error err) (w', past')) :
    Meets (grantContract lib svc t state.exp secs response identity) (svc.gauntlet lib request).run
      (w, past) Q := by
  simp only [gauntlet, meets_run_bind]
  refine verify_lone htoken hw fun w₁ past₁ h₁ => ?_
  refine pendingAccount_lone ha hp hT h₁ fun account w₂ past₂ hprov href h₂ => ?_
  have hok' : EmailMatches identity account.accountRef svc.sharedMailboxBypass → ∀ now e w' past',
      addSeconds now secs = some e → redeemedAt past' = some now → Calm state.exp T cs w' →
      Q (.ok ⟨state, account, a.adapter, response, now, e⟩) (w', past') := by
    intro hm now e w' past'
    rw [href] at hm
    exact hok hm account now e w' past' hprov href
  have herr' : ¬ EmailMatches identity account.accountRef svc.sharedMailboxBypass → ∀ now e err w' past',
      addSeconds now secs = some e → redeemedAt past' = some now → Q (.error err) (w', past') := by
    rw [href]
    exact herr
  simp only [meets_run_ite, meets_run_bind, meets_run_map]
  refine ⟨fun hpkce => ?_, fun _ => identify_lone hlife hchecks h₂ hok' herr'⟩
  exact storedVerifier_lone hT hpkce h₂ fun v w₃ past₃ h₃ => identify_lone hlife hchecks h₃ hok' herr'

theorem complete_lone {req : AuthorizeRequest} (ha : svc.admitRequest lib req = .ok a) {state : OAuthState}
    {request : CompleteRequest} (htoken : svc.signer.binding lib request.state = .ok state)
    (hp : state.provider = a.provider) (hlife : response.lifetime = some secs)
    (hchecks : verifyAudienceAndNonce lib identity response.idToken a.clientId state.nonce = .ok ())
    (hT : Awaits a state.accountId T) (hw : Calm state.exp T cs w) :
    Meets (grantContract lib svc t state.exp secs response identity)
      (svc.complete lib co request).run (w, past)
      fun r s => Concluded svc co a state.accountId identity secs r s.1 s.2 := by
  simp only [complete, meets_run_bind]
  refine gauntlet_lone ha htoken hp hlife hchecks hT hw ?_ ?_
  · intro hm account now e w₁ past₁ hprov href he hnow h₁
    refine carriedRefresh_lone h₁ fun refresh w₂ past₂ hpast₂ h₂ => ?_
    refine storeBundle_lone h₂ fun w₃ cs' past₃ hpast₃ hsingle h₃ => ?_
    have hscope : Single cs' ⟨co, a.provider, a.accountRef⟩ e := by
      rw [← hprov, ← href]
      exact hsingle
    refine activate_lone hT h₃ hscope fun o w₄ past₄ hpast₄ hconn => ?_
    have hredeemed : redeemedAt past₄ = some now := by
      rw [hpast₄, hpast₃, hpast₂, hnow]
    exact ⟨⟨now, e, hredeemed, he⟩, fun _ => ⟨⟨o, rfl⟩, hconn⟩, fun hno => absurd hm hno⟩
  · intro hm now e err w₁ past₁ he hnow
    exact ⟨⟨now, e, hnow, he⟩, fun hyes => absurd hyes hm, fun _ => ⟨err, rfl⟩⟩

end

/-! ## The runs -/

/-- One `authorize` on thread `t`, with nothing beside it. -/
abbrev authorizing (lib : Crates) (svc : IntegrationsOauthService) (t : Tid) (req : AuthorizeRequest) :
    Config (system lib svc) → Label (system lib svc) → Prop :=
  Lone t (· = .authorize req) (fun _ => True) answered

/-- One `complete` on thread `t` within the lifetime of its state, with nothing beside it. -/
abbrev completing (lib : Crates) (svc : IntegrationsOauthService) (t : Tid) (co : Uuid)
    (request : CompleteRequest) (exp : Int) (response : TokenResponse) (identity : IdentityClaims) :
    Config (system lib svc) → Label (system lib svc) → Prop :=
  Lone t (· = .complete co request) (within exp) (granted response identity)

instance (req : AuthorizeRequest) : DecidablePred (· = Call.authorize req)
  | .authorize req' => decidable_of_iff (req' = req) (by simp)
  | .complete .. | .disconnect .. | .status _ | .refreshDue _ | .ensureFresh ..
  | .refreshOauthCredentials .. | .refreshForCompanies .. => .isFalse nofun

instance (co : Uuid) (request : CompleteRequest) : DecidablePred (· = Call.complete co request)
  | .complete co' request' => decidable_of_iff (co' = co ∧ request' = request) (by simp)
  | .authorize _ | .disconnect .. | .status _ | .refreshDue _ | .ensureFresh ..
  | .refreshOauthCredentials .. | .refreshForCompanies .. => .isFalse nofun

instance (w : Hub) (op : Sig.Op) (ans : Sig.Ans op) : Decidable (answered w op ans) := by
  unfold answered
  infer_instance

section

variable {w₀ : Hub} {ok : Config (system lib svc) → Label (system lib svc) → Prop}
  {cfg cfg' : Config (system lib svc)} {t : Tid} {a : Admitted}

theorem idle_events (hr : Reach (system lib svc) (· = w₀) ok cfg) (ht : cfg.threads t = .idle) :
    cfg.events t = [] := by
  have htracks := (script_holds lib svc).tracks hr t
  rw [ht] at htracks
  exact htracks

theorem authorize_rests {overrides : EndpointOverrides} (hdoc : lib.Documented svc.signer)
    (hb : BuiltFrom lib.toUrlCrate overrides svc) (h₀ : w₀.Idle)
    (hr : Reach (system lib svc) (· = w₀) ok cfg) (hq : ∀ u, (cfg.threads u).Quiet)
    (ht : cfg.threads t = .idle) {req : AuthorizeRequest} (ha : svc.admitRequest lib req = .ok a)
    (hs : Steps (system lib svc) (authorizing lib svc t req) cfg cfg')
    (hcall : cfg'.call? t = some (.authorize req)) (hrest : AtRest (authorizing lib svc t req) cfg') :
    ∃ resp state token, cfg'.threads t = .done (.authorize req) (.ok resp) ∧
      Started lib svc a resp state token (cfg'.events t) ∧
      Awaits a resp.accountId (Hub.accounts cfg'.world) := by
  let Q (c : Call) (r : Res c) (s : Hub × Past) : Prop := ∀ hc : c = .authorize req, ∃ resp state token T',
    (hc ▸ r : Res (.authorize req)) = .ok resp ∧ Started lib svc a resp state token s.2 ∧
      OpenedFor a resp.accountId (Hub.accounts cfg.world) T' ∧ Scene t T' (Hub.credentials cfg.world) [] s.1
  have hpos : Position t (fun _ => True) answered (fun _ _ => False) Q cfg.world cfg := by
    unfold Position
    rw [ht]
    exact ⟨.refl, idle_events hr ht⟩
  have hcalls : ∀ c w', c = .authorize req → Around (system lib svc) (fun _ => True) cfg.world w' →
      Meets (.lone ((system lib svc).next t) (Around (system lib svc) fun _ => True) answered
        fun _ _ => False) ((system lib svc).prog c) (w', []) (Q c) := by
    rintro c w' rfl haround
    have hw : Scene t (Hub.accounts cfg.world) (Hub.credentials cfg.world) [] w' ∧ Hub.Given w' :=
      ⟨(Scene.of_quiet h₀ hr hq t).around haround, (given_of_reach h₀ hr).around haround⟩
    refine (authorize_lone hdoc hb ha hw).mono ?_
    intro r s hend hc
    exact hend
  -- A call that is played against these answers has returned when it is at rest.
  rcases (hs.position hcalls hpos).at_rest hrest hcall with ⟨r, w', w'', hd, haround, hleft, hend⟩ |
    ⟨op, k, -, hstuck⟩
  · obtain ⟨resp, state, token, T', hres, hstarted, hopened, hscene⟩ := hend rfl
    cases hres
    refine ⟨resp, state, token, hd, hstarted, ?_⟩
    have hT : Hub.accounts cfg'.world = T' := by
      rw [(moved_of_around hleft).accounts]
      exact (moved_of_around haround).accounts.trans hscene.accounts
    rw [hT]
    exact hopened.awaits
  · exact hstuck.elim

theorem Connected.of_eq {co id : Uuid} {w w' : Hub} (h : Connected co a id w)
    (ha : w'.accounts = w.accounts) (hc : w'.credentials = w.credentials) : Connected co a id w' := by
  obtain ⟨r, e, hrow, hstatus, he, hs⟩ := h.row
  exact ⟨r, e, by rw [ha]; exact hrow, hstatus, he, by rw [hc]; exact hs⟩

theorem Connected.active {co id : Uuid} {w : Hub} (h : Connected co a id w) :
    w.status? id = some .active := by
  obtain ⟨r, e, hrow, hstatus, -⟩ := h.row
  obtain ⟨hr, -⟩ := (hrow id r).mpr ⟨rfl, rfl⟩
  exact Hub.status?_eq_some.mpr ⟨r, hr, hstatus⟩

theorem complete_rests (h₀ : w₀.Idle) (hr : Reach (system lib svc) (· = w₀) ok cfg)
    (hq : ∀ u, (cfg.threads u).Quiet) (ht : cfg.threads t = .idle) {req : AuthorizeRequest}
    (ha : svc.admitRequest lib req = .ok a) {state : OAuthState} {request : CompleteRequest}
    (htoken : svc.signer.binding lib request.state = .ok state) (hp : state.provider = a.provider)
    (hT : Awaits a state.accountId (Hub.accounts cfg.world))
    (hlive : timestamp (Hub.clock cfg.world) < state.exp) {co : Uuid} {response : TokenResponse}
    {identity : IdentityClaims} {secs : Int} (hlife : response.lifetime = some secs)
    (hchecks : verifyAudienceAndNonce lib identity response.idToken a.clientId state.nonce = .ok ())
    (hs : Steps (system lib svc) (completing lib svc t co request state.exp response identity) cfg cfg')
    (hcall : cfg'.call? t = some (.complete co request))
    (hrest : AtRest (completing lib svc t co request state.exp response identity) cfg') :
    (∃ r, cfg'.threads t = .done (.complete co request) r ∧
      Concluded svc co a state.accountId identity secs r cfg'.world (cfg'.events t)) ∨
    (∃ p, cfg'.threads t = .running (.complete co request) p) ∧
      ∃ now, redeemedAt (cfg'.events t) = some now ∧ addSeconds now secs = none := by
  let Q (c : Call) (r : Res c) (s : Hub × Past) : Prop := ∀ hc : c = .complete co request,
    Concluded svc co a state.accountId identity secs (hc ▸ r : Res (.complete co request)) s.1 s.2
  have hpos : Position t (within state.exp) (granted response identity) (Overflows secs) Q cfg.world
      cfg := by
    unfold Position
    rw [ht]
    exact ⟨.refl, idle_events hr ht⟩
  have hcalls : ∀ c w', c = .complete co request → Around (system lib svc) (within state.exp) cfg.world w' →
      Meets (grantContract lib svc t state.exp secs response identity) ((system lib svc).prog c) (w', [])
        (Q c) := by
    rintro c w' rfl haround
    have hcalm : Calm state.exp (Hub.accounts cfg.world) (Hub.credentials cfg.world) cfg.world := by
      refine ⟨rfl, rfl, fun id => ?_, hlive⟩
      refine Option.eq_none_iff_forall_ne_some.mpr fun u hu => ?_
      exact (owned_of_reach h₀ hr).holder hu (hq u)
    refine (complete_lone ha htoken hp hlife hchecks hT (hcalm.around haround)).mono ?_
    intro r s hend hc
    exact hend
  -- The completion has returned, or it stands at the panic of its expiry.
  rcases (hs.position hcalls hpos).at_rest hrest hcall with ⟨r, w', w'', hd, haround, hleft, hend⟩ |
    ⟨op, k, hrun, -, hstuck⟩
  · left
    refine ⟨r, hd, ?_⟩
    obtain ⟨hexpiry, hyes, hno⟩ := hend rfl
    refine ⟨hexpiry, fun hm => ⟨(hyes hm).1, (hyes hm).2.of_eq ?_ ?_⟩, hno⟩
    · rw [(moved_of_around hleft).accounts]
      exact (moved_of_around haround).accounts
    · rw [(moved_of_around hleft).credentials]
      exact (moved_of_around haround).credentials
  · exact .inr ⟨⟨_, hrun⟩, hstuck⟩

/-- **What decides a completion**: the provider's email, and whether `chrono` can hold the expiry. -/
theorem completion_iff (h₀ : w₀.Idle) (hr : Reach (system lib svc) (· = w₀) ok cfg)
    (hq : ∀ u, (cfg.threads u).Quiet) (ht : cfg.threads t = .idle) {req : AuthorizeRequest}
    (ha : svc.admitRequest lib req = .ok a) {state : OAuthState} {request : CompleteRequest}
    (htoken : svc.signer.binding lib request.state = .ok state) (hp : state.provider = a.provider)
    (hT : Awaits a state.accountId (Hub.accounts cfg.world))
    (hlive : timestamp (Hub.clock cfg.world) < state.exp) {co : Uuid} {response : TokenResponse}
    {identity : IdentityClaims} {secs : Int} (hlife : response.lifetime = some secs)
    (hchecks : verifyAudienceAndNonce lib identity response.idToken a.clientId state.nonce = .ok ())
    (hs : Steps (system lib svc) (completing lib svc t co request state.exp response identity) cfg cfg')
    (hcall : cfg'.call? t = some (.complete co request))
    (hrest : AtRest (completing lib svc t co request state.exp response identity) cfg') :
    (EmailMatches identity a.accountRef svc.sharedMailboxBypass ∧
      ∀ now, redeemedAt (cfg'.events t) = some now → (addSeconds now secs).isSome) ↔
    ∃ o, cfg'.threads t = .done (.complete co request) (.ok o) ∧
      Connected co a state.accountId cfg'.world := by
  rcases complete_rests h₀ hr hq ht ha htoken hp hT hlive hlife hchecks hs hcall hrest with
    ⟨r, hd, ⟨now, e, hnow, he⟩, hyes, hno⟩ | ⟨⟨p, hrun⟩, now, hnow, hnone⟩
  · constructor
    · rintro ⟨hm, -⟩
      obtain ⟨⟨o, rfl⟩, hconn⟩ := hyes hm
      exact ⟨o, hd, hconn⟩
    · rintro ⟨o, hd', -⟩
      have hm : EmailMatches identity a.accountRef svc.sharedMailboxBypass := by
        by_contra hm
        obtain ⟨err, rfl⟩ := hno hm
        rw [hd] at hd'
        cases hd'
      refine ⟨hm, fun now' hnow' => ?_⟩
      rw [hnow] at hnow'
      cases hnow'
      rw [he]
      rfl
  · constructor
    · rintro ⟨-, hfits⟩
      have := hfits now hnow
      rw [hnone] at this
      cases this
    · rintro ⟨o, hd, -⟩
      rw [hrun] at hd
      cases hd

end

end BackboneIntegrations.OAuth
