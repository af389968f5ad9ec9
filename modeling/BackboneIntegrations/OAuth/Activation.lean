import BackboneIntegrations.OAuth.Lifecycle

/-!
# One activation for each account

A signed state stays valid for its whole lifetime. What ends an authorization is the row: a
completion counts only while its account is pending, and an account is pending only once.
-/

open Interleave

namespace BackboneIntegrations.OAuth

open IntegrationsOauthService

variable {lib : Crates} {svc : IntegrationsOauthService} {w₀ : Hub}
  {ok : Config (system lib svc) → Label (system lib svc) → Prop} {cfg cfg' : Config (system lib svc)}

/-- The account was there, and it is not pending any more. -/
structure Left (w₀ : Hub) (cfg : Config (system lib svc)) (id : Uuid) : Prop where
  entered : Entered w₀ cfg id
  status : Hub.status? cfg.world id ≠ some .pending

theorem Follows.not_pending {a b : Option IntegrationAccountStatus} (h : Follows a b)
    (ha : a ≠ some .pending) : b ≠ some .pending := by
  rintro rfl
  rcases h with h | ⟨x, hx, y, hy, hxy⟩
  · cases h
  · cases hy
    rcases hxy.cases_tail with rfl | ⟨z, -, hedge⟩
    · exact ha hx
    · cases hedge

theorem Left.step {l : Label (system lib svc)} {id : Uuid} (h : Left w₀ cfg id) (h₀ : w₀.Idle)
    (hr : Reach (system lib svc) (· = w₀) ok cfg) (hs : Step (system lib svc) cfg l cfg') :
    Left w₀ cfg' id where
  entered := h.entered.step hs
  status := (follows_step h₀ hr hs h.entered).not_pending h.status

theorem fetched_status {t : Tid} {id : Uuid} {r : AccountRow}
    (hs : Step (system lib svc) cfg (.op t (.fetchAccount id) (.ok (some r))) cfg') :
    Hub.status? cfg.world id = some r.status := by
  have hn : Hub.next t (.fetchAccount id) (.ok (some r)) cfg.world = some cfg'.world := hs.next_eq
  simp only [Hub.next, Option.ite_none_right_eq_some] at hn
  obtain ⟨a, ha, rfl⟩ := Option.map_eq_some_iff.mp hn.1.symm
  rw [Hub.status?, ha]
  rfl

/-! ## At most one completion -/

/-- An update that activated its row. -/
def Activated (cfg : Config (system lib svc)) (t : Tid) (id : Uuid) : Prop :=
  ∃ scopes expiresAt now, cfg.Did t (.update id (.activate scopes expiresAt now)) (.ok 1)

theorem activated_step {l : Label (system lib svc)} {t : Tid} {id : Uuid}
    (hs : Step (system lib svc) cfg l cfg') (h : Activated cfg' t id) :
    Activated cfg t id ∨ (Hub.status? cfg.world id = some .pending ∧
      Hub.status? cfg'.world id = some .active ∧ ∃ op ans, l = .op t op ans) := by
  obtain ⟨scopes, expiresAt, now, hd⟩ := h
  rcases hs.did.mp hd with rfl | hd
  · right
    have hc := step_change hs
    generalize hw' : cfg'.world = w' at hc ⊢
    cases hc with
    | update hr hfree =>
      obtain ⟨hr, hg⟩ := Hub.statusTarget_eq_some.mp hr
      refine ⟨Hub.status?_eq_some.mpr ⟨_, hr, by simpa [StatusUpdate.guard] using hg⟩, ?_, _, _, rfl⟩
      simp [Hub.status?, Hub.setStatus, StatusUpdate.set]
    | quiet hq => cases hq
  · exact .inl ⟨_, _, _, hd⟩

theorem left_of_activated (h₀ : w₀.Idle) (hr : Reach (system lib svc) (· = w₀) ok cfg) {t : Tid}
    {id : Uuid} (h : Activated cfg t id) : Left w₀ cfg id := by
  induction hr with
  | init _ =>
    obtain ⟨_, _, _, hd⟩ := h
    cases hd
  | @step cfg l cfg' hreach _ hs ih =>
    rcases activated_step hs h with h | ⟨hb, ha, -⟩
    · exact (ih h).step h₀ hreach hs
    · refine ⟨?_, by simp [ha]⟩
      exact (entered_of_status h₀ hreach (by simp [hb])).step hs

theorem activated_unique (h₀ : w₀.Idle) (hr : Reach (system lib svc) (· = w₀) ok cfg) {t u : Tid}
    {id : Uuid} (ht : Activated cfg t id) (hu : Activated cfg u id) : t = u := by
  induction hr with
  | init _ =>
    obtain ⟨_, _, _, hd⟩ := ht
    cases hd
  | @step cfg l cfg' hreach _ hs ih =>
    rcases activated_step hs ht with ht' | ⟨hb, -, op, ans, hl⟩ <;>
      rcases activated_step hs hu with hu' | ⟨hb', -, op', ans', hl'⟩
    · exact ih ht' hu'
    · exact absurd hb' (left_of_activated h₀ hreach ht').status
    · exact absurd hb (left_of_activated h₀ hreach hu').status
    · rw [hl] at hl'
      cases hl'
      rfl

theorem activated_of_ok {init : Hub → Prop} (hr : Reach (system lib svc) init ok cfg) {t : Tid}
    {companyId : Uuid} {req : CompleteRequest} {o : CompleteOutcome}
    (hd : cfg.threads t = .done (.complete companyId req) (.ok o)) : Activated cfg t o.accountId := by
  obtain ⟨scopes, expiresAt, now, hm⟩ := (script_holds lib svc).leave hr hd
  exact ⟨scopes, expiresAt, now, mem_events.mp hm⟩

/-! ## No replay -/

/-- The operations that go to the provider or to the credential store. -/
def External : Op → Prop
  | .exchange .. | .fetchIdentity .. | .issue .. | .readToken _ | .rotate .. | .revoke _ => True
  | _ => False

theorem pending_of_external {init : Hub → Prop} (hr : Reach (system lib svc) init ok cfg) {t : Tid}
    {companyId : Uuid} {req : CompleteRequest} (hc : cfg.call? t = some (.complete companyId req))
    {op : Op} {ans : Ans op} (hd : cfg.Did t op ans) (hx : External op) :
    ∃ (state : OAuthState) (r : AccountRow), svc.signer.binding lib req.state = .ok state ∧
      cfg.Did t (.fetchAccount state.accountId) (.ok (some r)) ∧ r.status = .pending := by
  have hX := script_holds lib svc
  have ofExchange : ∀ {endpoint form ans}, cfg.Did t (.exchange endpoint form) ans →
      ∃ (state : OAuthState) (r : AccountRow), svc.signer.binding lib req.state = .ok state ∧
        cfg.Did t (.fetchAccount state.accountId) (.ok (some r)) ∧ r.status = .pending := by
    intro endpoint form ans hd
    obtain ⟨pre, hpre, state, r, adapter, verifier, hp⟩ := hX.past hr hc hd
    exact ⟨state, r, hp.token, mem_events.mp (hpre.subset (List.mem_cons_of_mem _ hp.read)), hp.pending⟩
  have ofExchanged : ∀ {pre : Past}, ⟨op, ans⟩ :: pre <:+ cfg.events t → Exchanged pre →
      ∃ (state : OAuthState) (r : AccountRow), svc.signer.binding lib req.state = .ok state ∧
        cfg.Did t (.fetchAccount state.accountId) (.ok (some r)) ∧ r.status = .pending := by
    rintro pre hpre ⟨endpoint, form, ans', hm⟩
    exact ofExchange (mem_events.mp (hpre.subset (List.mem_cons_of_mem _ hm)))
  obtain ⟨pre, hpre, hm⟩ := hX.past hr hc hd
  cases op with
  | exchange endpoint form => exact ofExchange hd
  | fetchIdentity endpoint token | readToken scope => exact ofExchanged hpre hm
  | issue scope purpose bundle expiresAt =>
    obtain ⟨g, refresh, hg, -⟩ := hm
    exact ofExchanged hpre hg.exchanged
  | rotate scope bundle expiresAt =>
    obtain ⟨g, refresh, hg, -⟩ := hm
    exact ofExchanged hpre hg.exchanged
  | revoke scope => exact hm.elim
  | _ => exact hx.elim

theorem not_read_pending (h₀ : w₀.Idle) {newer older : List (Taken (system lib svc))}
    {s : Taken (system lib svc)} (hr : Run (system lib svc) (· = w₀) ok (newer ++ s :: older) cfg)
    {t : Tid} {c : Call} (hl : s.label = .start t c) {id : Uuid} (hleft : Left w₀ s.before id)
    {r : AccountRow} (hd : cfg.Did t (.fetchAccount id) (.ok (some r))) : r.status ≠ .pending := by
  obtain ⟨hold, -, hs⟩ := hr.split
  let P (c : Config (system lib svc)) : Prop := Left w₀ c id ∧
    ∀ r : AccountRow, c.Did t (.fetchAccount id) (.ok (some r)) → r.status ≠ .pending
  have hstart : P s.after := by
    refine ⟨hleft.step h₀ hold.reach hs, fun r hd => ?_⟩
    rw [hl] at hs
    rcases hs.did.mp hd with heq | hd
    · cases heq
    · exact absurd hd ((script_holds lib svc).not_did_of_start hold.reach hs)
  have hkeep := hr.keeps hstart fun {c l c'} hreach _ hst hP => by
    refine ⟨hP.1.step h₀ hreach hst, fun r hd => ?_⟩
    rcases hst.did.mp hd with rfl | hd
    · rintro hp
      have := fetched_status hst
      rw [hp] at this
      exact hP.1.status this
    · exact hP.2 r hd
  exact hkeep.1.2 r hd

/-- What a run that ends in `cfg` keeps to. -/
structure OnceOnly (w₀ : Hub) (ok : Config (system lib svc) → Label (system lib svc) → Prop)
    (cfg : Config (system lib svc)) : Prop where
  /-- Of the completions that return `Ok` for one account there is one. -/
  unique : ∀ {t u companyId companyId' req req'} {o o' : CompleteOutcome},
    cfg.threads t = .done (.complete companyId req) (.ok o) →
    cfg.threads u = .done (.complete companyId' req') (.ok o') → o.accountId = o'.accountId → t = u
  /-- A completion that starts after its account has left pending stays inside, and it fails. -/
  noReplay : ∀ {newer older : List (Taken (system lib svc))} {s : Taken (system lib svc)}
    {t companyId req} {state : OAuthState},
    Run (system lib svc) (· = w₀) ok (newer ++ s :: older) cfg →
    s.label = .start t (.complete companyId req) → svc.signer.binding lib req.state = .ok state →
    (∃ s' ∈ s :: older, Hub.status? s'.before.world state.accountId ≠ none) →
    Hub.status? s.before.world state.accountId ≠ some .pending →
    (∀ op ans, cfg.Did t op ans → ¬ External op) ∧
      ∀ r, cfg.threads t = .done (.complete companyId req) r → ∃ e, r = .error e

/-- **At most one activation, and no replay.** In every run, one completion at most returns `Ok` for an
account, and none goes to the provider or to the store after the account has left pending. -/
theorem at_most_once_activation (h₀ : w₀.Idle) (hr : Reach (system lib svc) (· = w₀) ok cfg) :
    OnceOnly w₀ ok cfg := by
  constructor
  · intro t u companyId companyId' req req' o o' ht hu hid
    have hat := activated_of_ok hr ht
    rw [hid] at hat
    exact activated_unique h₀ hr hat (activated_of_ok hr hu)
  · intro newer older s t companyId req state hrun hl hstate hwas hnow
    obtain ⟨hold, -, hs⟩ := hrun.split
    have hentered : Entered w₀ s.before state.accountId := by
      obtain ⟨s', hs', hne⟩ := hwas
      rcases List.mem_cons.mp hs' with rfl | hs'
      · exact entered_of_status h₀ hold.reach hne
      · obtain ⟨later, earlier, rfl⟩ := List.append_of_mem hs'
        obtain ⟨hold', -, -⟩ := hold.split
        exact entered_later hold (entered_of_status h₀ hold'.reach hne)
    have hcall : cfg.call? t = some (.complete companyId req) := by
      refine hr.call_of_start ?_
      rw [hrun.hist_eq, ← hl]
      simp
    -- Whatever goes outside has read the account as pending, and nobody reads it so any more.
    have inside : ∀ op ans, cfg.Did t op ans → ¬ External op := by
      intro op ans hd hx
      obtain ⟨state', r, hstate', hread, hp⟩ := pending_of_external hr hcall hd hx
      rw [hstate] at hstate'
      cases hstate'
      exact not_read_pending h₀ hrun hl ⟨hentered, hnow⟩ hread hp
    refine ⟨inside, fun r hdone => ?_⟩
    cases r with
    | error e => exact ⟨e, rfl⟩
    | ok o =>
      obtain ⟨scopes, expiresAt, now, hd⟩ := activated_of_ok hr hdone
      obtain ⟨pre, hpre, g, ev, h', hg, -, -, hev, rfl⟩ := (script_holds lib svc).past hr hcall hd
      have hmem : cfg.Did t ev.op ev.ans := mem_events.mp (hpre.subset (by simp))
      -- An activation comes behind a store verb, which is outside.
      refine absurd ?_ (inside _ _ hmem)
      obtain ⟨op, ans⟩ := ev
      cases op <;> trivial

theorem at_most_once_activation_mailbox : ∃ cfg : Config (system mailCrates mailService),
    cfg.hist = mailRace.reverse ∧ OnceOnly mailHub (fun cfg l => mailRules cfg l) cfg := by
  obtain ⟨cfg, e, hr, hh, -⟩ := mailRace_reach
  exact ⟨cfg, hh, at_most_once_activation mailHub_idle hr⟩

end BackboneIntegrations.OAuth
