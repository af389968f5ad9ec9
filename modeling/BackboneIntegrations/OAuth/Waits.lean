import Mathlib.Data.List.MinMax
import BackboneIntegrations.Interleave.Front
import BackboneIntegrations.Interleave.Progress
import BackboneIntegrations.OAuth.Binding
import BackboneIntegrations.OAuth.Disconnect
import BackboneIntegrations.OAuth.Scene

/-!
# Calls that wait for each other

A statement waits for the rows that another transaction has locked. A refresh locks one row and never
waits behind it. An `authorize` waits while it holds rows of its account, so only two of them for one
account can lock each other out.
-/

open Interleave

namespace BackboneIntegrations.OAuth

open IntegrationsOauthService

variable {lib : Crates} {svc : IntegrationsOauthService} {w₀ : Hub}
  {ok : Config (system lib svc) → Label (system lib svc) → Prop} {cfg cfg' : Config (system lib svc)}

/-! ## What a statement waits for -/

namespace Hub

variable {w : Hub} {t : Tid} {op : Op}

/-- The operation can be answered now: a statement does not fail, and the store keeps to its port. -/
def Answers (w : Hub) (t : Tid) (op : Op) : Prop :=
  ∃ ans w', Answered op ans ∧ w.StorePort op ans ∧ next t op ans w = some w'

/-- The statement waits for the row of another transaction, or the key that it inserts is taken. -/
inductive Waits (w : Hub) (t : Tid) : Op → Prop
  | deleteRow {id r u} (hr : w.accounts.lookup id = some r) (hu : w.txs.holder id = some u)
    (hne : u ≠ t) : Waits w t (.deleteRow id)
  | insertAccount {row : NewAccount} (hr : w.accounts.lookup row.id ≠ none) :
    Waits w t (.insertAccount row)
  | updateTx {id v u} (hu : w.txs.holder id = some u) (hne : u ≠ t) : Waits w t (.updateTx id v)
  | update {id v u} (hu : w.txs.holder id = some u) : Waits w t (.update id v)

theorem freeFor_or (w : Hub) (t : Tid) (id : Uuid) :
    w.txs.FreeFor t id ∨ ∃ u, w.txs.holder id = some u ∧ u ≠ t := by
  unfold Txs.FreeFor
  rcases hu : w.txs.holder id with _ | u
  · exact .inl (.inl rfl)
  · by_cases hut : u = t
    · exact .inl (.inr (by rw [hut]))
    · exact .inr ⟨u, rfl, hut⟩

theorem exists_soonest (w : Hub) (t : Tid) (window : Int) (attempted : List Uuid) :
    (∀ e ∈ w.accounts.entries, ¬ w.Due t window attempted e.1 e.2) ∨
      ∃ id r, w.accounts.lookup id = some r ∧ w.Due t window attempted id r ∧
        w.Soonest t window attempted r := by
  let due := w.accounts.entries.filter fun e => w.Due t window attempted e.1 e.2
  rcases hm : due.argmin (fun e => e.2.expiresAt.getD 0) with _ | ⟨id, r⟩
  · left
    intro e he hd
    have hempty := List.argmin_eq_none.mp hm
    have hmem : e ∈ due := List.mem_filter.mpr ⟨he, by simpa using hd⟩
    rw [hempty] at hmem
    cases hmem
  · right
    obtain ⟨he, hd⟩ := List.mem_filter.mp (List.argmin_mem hm)
    refine ⟨id, r, AList.mem_lookup_iff.mpr he, by simpa using hd, fun e he' hd' x hx y hy => ?_⟩
    have hle := List.le_of_mem_argmin (List.mem_filter.mpr ⟨he', by simpa using hd'⟩) hm
    rw [Option.mem_def] at hx hy
    simpa [hx, hy] using hle

theorem storePort_transport (w : Hub) (scope : CredentialScope) :
    w.StorePort (.readToken scope) (.error ⟨OAuthCredentialFailure.codeTransport, ""⟩) ∧
      w.StorePort (.revoke scope) (.error ⟨OAuthCredentialFailure.codeTransport, ""⟩) := by
  unfold StorePort
  simp [OAuthCredentialFailure.codeTransport, OAuthCredentialFailure.codeNotFound,
    OAuthCredentialFailure.codeNotActive, OAuthCredentialFailure.codeExpired]

theorem answers_or_waits (w : Hub) (t : Tid) (hp : op ≠ .panic) : w.Answers t op ∨ w.Waits t op := by
  -- Only a statement on a row that another thread holds is left without an answer.
  cases op with
  | panic => exact absurd rfl hp
  | utcNow => exact .inl ⟨w.clock, w, rfl, rfl, if_pos rfl⟩
  | newUuid =>
    obtain ⟨id, hid⟩ := Infinite.exists_notMem_finset w.used.toFinset
    exact .inl ⟨id, _, rfl, rfl, if_neg (by simpa using hid)⟩
  | randomBytes n =>
    exact .inl ⟨List.replicate n 0, w, rfl, rfl, if_pos List.length_replicate⟩
  | fetchAccount id => exact .inl ⟨.ok _, w, rfl, rfl, if_pos rfl⟩
  | fetchVerifier id => exact .inl ⟨.ok _, w, rfl, rfl, if_pos rfl⟩
  | deleteSnapshot provider accountRef => exact .inl ⟨.ok _, w, rfl, rfl, if_pos (.refl _)⟩
  | begin | commit | rollback => exact .inl ⟨.ok (), _, rfl, rfl, rfl⟩
  | drop => exact .inl ⟨(), _, rfl, rfl, rfl⟩
  | deleteRow id =>
    rcases hr : w.accounts.lookup id with _ | r
    · exact .inl ⟨.ok (0 : Nat), w, rfl, rfl, by simp [next, hr]⟩
    · rcases w.freeFor_or t id with hf | ⟨u, hu, hne⟩
      · exact .inl ⟨.ok (1 : Nat), (w.lock t id).queue t (.delete id), rfl, rfl, by simp [next, hr, hf]⟩
      · exact .inr (.deleteRow hr hu hne)
  | insertAccount row =>
    by_cases hr : w.accounts.lookup row.id = none
    · exact .inl ⟨.ok (), _, rfl, rfl, if_pos hr⟩
    · exact .inr (.insertAccount hr)
  | claimDue window attempted =>
    rcases w.exists_soonest t window attempted with hnone | ⟨id, r, hr, hd, hs⟩
    · exact .inl ⟨.ok none, w, rfl, rfl, if_pos hnone⟩
    · refine .inl ⟨.ok (some (r.toDue id)), w.lock t id, rfl, rfl, ?_⟩
      simp [next, Account.toDue, hr, hd, hs]
  | claimById id =>
    left
    rcases hr : w.accounts.lookup id with _ | r
    · exact ⟨.ok none, w, rfl, rfl, by simp [next, hr]⟩
    · by_cases hc : r.status = .active ∧ w.txs.FreeFor t id
      · exact ⟨.ok (some (r.toDue id)), w.lock t id, rfl, rfl, by simp [next, hr, hc]⟩
      · exact ⟨.ok none, w, rfl, rfl, by simp [next, hr, hc]⟩
  | updateTx id u =>
    rcases hr : w.claimedTarget id u with _ | r
    · exact .inl ⟨.ok (0 : Nat), w, rfl, rfl, by simp [next, hr]⟩
    · rcases w.freeFor_or t id with hf | ⟨v, hv, hne⟩
      · exact .inl ⟨.ok (1 : Nat), (w.lock t id).queue t (.update id u (w.began t)), rfl, rfl,
          by simp [next, hr, hf]⟩
      · exact .inr (.updateTx hv hne)
  | update id u =>
    rcases hr : w.statusTarget id u with _ | r
    · exact .inl ⟨.ok (0 : Nat), w, rfl, rfl, by simp [next, hr]⟩
    · rcases hv : w.txs.holder id with _ | v
      · exact .inl ⟨.ok (1 : Nat), w.setStatus id u r, rfl, rfl, by simp [next, hr, hv]⟩
      · exact .inr (.update hv)
  | exchange endpoint form => exact .inl ⟨.error ⟨.network, ""⟩, w, rfl, rfl, rfl⟩
  | fetchIdentity endpoint token => exact .inl ⟨.error ⟨.network, ""⟩, w, rfl, rfl, rfl⟩
  | issue scope purpose bundle expiresAt =>
    exact .inl ⟨.error ⟨OAuthCredentialFailure.codeTransport, ""⟩, w, rfl, rfl, rfl⟩
  | readToken scope => exact .inl ⟨_, w, rfl, (w.storePort_transport scope).1, rfl⟩
  | rotate scope bundle expiresAt =>
    exact .inl ⟨.error ⟨OAuthCredentialFailure.codeTransport, ""⟩, w, rfl, rfl, rfl⟩
  | revoke scope => exact .inl ⟨_, w, rfl, (w.storePort_transport scope).2, rfl⟩

end Hub

/-! ## Who holds a row -/

def Call.isRefresh : Call → Bool
  | .refreshDue _ | .ensureFresh .. | .refreshOauthCredentials .. | .refreshForCompanies .. => true
  | _ => false

/-- The statements of a refresh that lock the row they answer with. -/
def Op.claims : Op → Bool
  | .claimDue .. | .claimById _ | .updateTx .. => true
  | _ => false

theorem holder_taken {l : Label (system lib svc)} (hs : Step (system lib svc) cfg l cfg') {u : Tid}
    {id : Uuid} (hu : (Hub.txs cfg'.world).holder id = some u) :
    (Hub.txs cfg.world).holder id = some u ∨
      ∃ op ans, l = .op u op ans ∧ ((⟨op, ans⟩ : Event Sig) = ⟨.deleteRow id, .ok 1⟩ ∨ op.claims) := by
  cases hs with
  | start ht => exact .inl hu
  | finish ht | crash ht => exact .inl (Txs.clear_holder_iff.mp hu).1
  | @env e w hw =>
    left
    cases e with
    | tick clock =>
      simp only [system, Hub.env, Option.ite_none_right_eq_some, Option.some.injEq] at hw
      rw [← hw.2] at hu
      exact hu
    | kill token =>
      cases hw
      exact hu
  | @op t c op ans k w ht hw =>
    -- A lock is taken on the row that the statement is about.
    have lock : ∀ {x}, ((Hub.txs cfg.world).lock t x).holder id = some u →
        (Hub.txs cfg.world).holder id = some u ∨ u = t ∧ id = x := by
      intro x hx
      rw [Txs.lock_holder] at hx
      split at hx
      · exact .inr ⟨(Option.some.inj hx).symm, ‹_›⟩
      · exact .inl hx
    have hc : Hub.Change t cfg.world op ans w := Hub.next_change hw
    rw [Config.put_world] at hu
    cases hc with
    | deleteRow =>
      refine (lock hu).imp_right ?_
      rintro ⟨rfl, rfl⟩
      exact ⟨_, _, rfl, .inl rfl⟩
    | updateTx | claimDue | claimById =>
      refine (lock hu).imp_right ?_
      rintro ⟨rfl, rfl⟩
      exact ⟨_, _, rfl, .inr rfl⟩
    | commit | rollback | drop => exact .inl (Txs.clear_holder_iff.mp hu).1
    | _ => exact .inl hu

theorem isRefresh_of_claims {c : Call} {h : Past} {op : Op} (hm : must lib svc c h op)
    (hop : op.claims) : c.isRefresh := by
  cases op with
  | claimDue | claimById | updateTx => cases c <;> first | rfl | exact hm.elim
  | _ => cases hop

theorem holder_call (hr : Reach (system lib svc) (· = w₀) ok cfg) (h₀ : w₀.Idle) {u : Tid} {id : Uuid}
    (hu : (Hub.txs cfg.world).holder id = some u) :
    ∃ c p, cfg.threads u = .running c p ∧ (c.isRefresh ∨ cfg.Did u (.deleteRow id) (.ok 1)) := by
  obtain ⟨c, hc, hcall⟩ : ∃ c, cfg.call? u = some c ∧
      (c.isRefresh ∨ cfg.Did u (.deleteRow id) (.ok 1)) := by
    induction hr with
    | init h =>
      subst h
      rw [Config.init_world, h₀.txs] at hu
      cases hu
    | @step cfg l cfg' hreach _ hs ih =>
      rcases holder_taken hs hu with hu | ⟨op, ans, rfl, hop⟩
      · obtain ⟨c, hc, hcall⟩ := ih hu
        exact ⟨c, hs.keeps_call hc, hcall.imp_right fun hd => hs.did.mpr (.inr hd)⟩
      · obtain ⟨c, hc, hm⟩ := (script_holds lib svc).asked hreach hs
        refine ⟨c, hs.keeps_call hc, ?_⟩
        rcases hop with hop | hop
        · cases hop
          exact .inr (hs.did.mpr (.inl rfl))
        · exact .inl (isRefresh_of_claims hm hop)
  have hrun := (owned_of_reach h₀ hr).holder hu
  unfold Config.call? at hc
  rcases hth : cfg.threads u with _ | ⟨c', p⟩ | ⟨c', r⟩ | c'
  · rw [hth] at hc
    cases hc
  · rw [hth] at hc
    cases hc
    exact ⟨c, p, rfl, hcall⟩
  · rw [hth] at hrun
    exact absurd trivial hrun
  · rw [hth] at hrun
    exact absurd trivial hrun

/-! ## The rows that a call deletes -/

theorem snapshot_key (h₀ : w₀.Idle) (hr : Reach (system lib svc) (· = w₀) ok cfg) {t : Tid}
    {provider accountRef : String} {ids : List Uuid} {id : Uuid}
    (hd : cfg.Did t (.deleteSnapshot provider accountRef) (.ok ids)) (hid : id ∈ ids) :
    Entered w₀ cfg id ∧ ∀ r, cfg.world.accounts.lookup id = some r → r.key = (provider, accountRef) := by
  induction hr with
  | init _ => cases hd
  | @step cfg l cfg' hreach _ hs ih =>
    have keep : Entered w₀ cfg id →
        (∀ r, cfg.world.accounts.lookup id = some r → r.key = (provider, accountRef)) →
        Entered w₀ cfg' id ∧
          ∀ r, cfg'.world.accounts.lookup id = some r → r.key = (provider, accountRef) := by
      intro he hkey
      refine ⟨he.step hs, fun r hrow => ?_⟩
      obtain ⟨r₀, hb, hk⟩ := he.row_before h₀ hreach hs hrow
      rw [hk, hkey r₀ hb]
    rcases hs.did.mp hd with rfl | hd
    · have hn : Hub.next t (.deleteSnapshot provider accountRef) (.ok ids) cfg.world =
          some cfg'.world := hs.next_eq
      simp only [Hub.next, Option.ite_none_right_eq_some] at hn
      obtain ⟨r₀, hrow, hkey⟩ := Hub.mem_matching.mp (hn.1.mem_iff.mp hid)
      refine keep (entered_of_status h₀ hreach ?_) fun r hr => ?_
      · simp [Hub.status?, hrow]
      · rw [hrow] at hr
        cases hr
        exact hkey
    · exact keep (ih hd).1 (ih hd).2

/-- Two calls of `authorize` for one account. -/
def Rivals (lib : Crates) (svc : IntegrationsOauthService) (c c' : Call) : Prop :=
  ∃ req req' a a', c = .authorize req ∧ c' = .authorize req' ∧ svc.admitRequest lib req = .ok a ∧
    svc.admitRequest lib req' = .ok a' ∧ (a.provider, a.accountRef) = (a'.provider, a'.accountRef)

theorem authorize_of_deleteRow {c : Call} {h : Past} {id : Uuid}
    (hm : must lib svc c h (.deleteRow id)) :
    ∃ req a ids, c = .authorize req ∧ svc.admitRequest lib req = .ok a ∧ id ∈ ids ∧
      ⟨.deleteSnapshot a.provider a.accountRef, .ok ids⟩ ∈ h := by
  cases c with
  | authorize req =>
    obtain ⟨a, ids, ha, hid, hsnap⟩ := hm
    exact ⟨req, a, ids, rfl, ha, hid, hsnap⟩
  | _ => exact hm.elim

theorem rivals_of_wait (h₀ : w₀.Idle) (hr : Reach (system lib svc) (· = w₀) ok cfg) {t u : Tid} {c c' : Call}
    {id : Uuid} {k : Ans (.deleteRow id) → Prog Sig (Res c)} {p : Prog Sig (Res c')} {r : Account}
    (ht : cfg.threads t = .running c (.call (.deleteRow id) k)) (hu : cfg.threads u = .running c' p)
    (hd : cfg.Did u (.deleteRow id) (.ok 1)) (hrow : cfg.world.accounts.lookup id = some r) :
    Rivals lib svc c c' := by
  obtain ⟨req, a, ids, rfl, ha, hid, hsnap⟩ :=
    authorize_of_deleteRow ((script_holds lib svc).must hr ht)
  obtain ⟨pre, hpre, hm⟩ := (script_holds lib svc).past hr (by rw [Config.call?, hu]; rfl) hd
  obtain ⟨req', a', ids', rfl, ha', hid', hsnap'⟩ := authorize_of_deleteRow hm
  have hkey := (snapshot_key h₀ hr (mem_events.mp hsnap) hid).2 r hrow
  have hkey' := (snapshot_key h₀ hr
    (mem_events.mp (hpre.subset (List.mem_cons_of_mem _ hsnap'))) hid').2 r hrow
  exact ⟨req, req', a, a', rfl, rfl, ha, ha', hkey.symm.trans hkey'⟩

/-! ## No deadlock -/

/-- The steps of the calls that run, with no failure of a statement, and a crash only where the code
panics. -/
def Going (cfg : Config (system lib svc)) : Label (system lib svc) → Prop
  | .op _ op ans => Answered op ans ∧ cfg.world.StorePort op ans
  | .finish _ => True
  | .crash t => ∃ c k, cfg.threads t = .running c (.call .panic k)
  | .start .. | .env _ => False

theorem Going.own {l : Label (system lib svc)} (h : Going cfg l) : l.Own := by
  cases l with
  | start | env => exact h.elim
  | op | finish | crash => trivial

theorem waits_of_stuck (hstuck : ∀ l cfg', Going cfg l → ¬ Step (system lib svc) cfg l cfg') {t : Tid}
    {c : Call} {p : Prog Sig (Res c)} (ht : cfg.threads t = .running c p) :
    ∃ op k, p = .call op k ∧ Hub.Waits cfg.world t op := by
  rcases p with r | ⟨op, k⟩
  · exact absurd (Step.finish ht) (hstuck _ _ trivial)
  · by_cases hp : op = .panic
    · subst hp
      exact absurd (Step.crash ht) (hstuck _ _ ⟨c, k, ht⟩)
    · rcases Hub.answers_or_waits cfg.world t hp with ⟨ans, w', ha, hport, hn⟩ | hw
      · exact absurd (Step.op ht hn) (hstuck _ _ ⟨ha, hport⟩)
      · exact ⟨op, k, rfl, hw⟩

/-- What a call that waits waits for. A refresh never waits. -/
theorem waits_for (h₀ : w₀.Idle) (hr : Reach (system lib svc) (· = w₀) ok cfg) {t : Tid} {c : Call} {op : Op}
    {k : Ans op → Prog Sig (Res c)} (ht : cfg.threads t = .running c (.call op k))
    (hw : Hub.Waits cfg.world t op) :
    c.isRefresh = false ∧ ∃ id u, (Hub.txs cfg.world).holder id = some u ∧
      ((∃ v, op = .update id v) ∨
        op = .deleteRow id ∧ u ≠ t ∧ ∃ r, cfg.world.accounts.lookup id = some r) := by
  have hm := (script_holds lib svc).must hr ht
  cases hw with
  | @deleteRow id r u hrow hu hne =>
    obtain ⟨req, -, -, rfl, -⟩ := authorize_of_deleteRow hm
    exact ⟨rfl, id, u, hu, .inr ⟨rfl, hne, r, hrow⟩⟩
  | @update id v u hu =>
    refine ⟨?_, id, u, hu, .inl ⟨v, rfl⟩⟩
    cases c <;> first | rfl | exact hm.elim
  | @updateTx id v u hu hne =>
    exfalso
    obtain ⟨d, hd, rfl⟩ : ∃ d, openClaim (cfg.events t) = some d ∧ d.id = id := by
      cases c <;> first | exact hm | exact hm.elim
    -- A refresh updates the row that it holds itself.
    have hheld := ((locked_of_reach h₀ hr).claimed ht hd).1
    rw [hu] at hheld
    exact hne (Option.some.inj hheld)
  | @insertAccount row hrow =>
    exfalso
    obtain ⟨hid, hc⟩ : ⟨.newUuid, row.id⟩ ∈ cfg.events t ∧ Uninserted (cfg.events t) := by
      cases c <;> first | exact hm.2 | exact hm.elim
    have hm := minted_of_reach h₀ hr
    -- The id is new, so there is no row under it.
    rcases hm.owned (Hub.status?_eq_none.not.mpr hrow) with hold | ⟨u, hu, hcom⟩
    · exact hold (hm.fresh (mem_events.mp hid))
    · rw [hm.unique hu (mem_events.mp hid)] at hcom
      exact (hc _ (mem_events.mpr hcom)).1 rfl

/-- If no call that runs can go on, then two of them are for one account and each waits for the other's
rows. -/
theorem rivals_of_stuck (h₀ : w₀.Idle) (hr : Reach (system lib svc) (· = w₀) ok cfg) (hb : cfg.Busy)
    (hstuck : ∀ l cfg', Going cfg l → ¬ Step (system lib svc) cfg l cfg') :
    ∃ u v c c' p p', u ≠ v ∧ cfg.threads u = .running c p ∧ cfg.threads v = .running c' p' ∧
      Rivals lib svc c c' := by
  -- who holds a row has deleted it, and waits itself
  have holder : ∀ {id u}, (Hub.txs cfg.world).holder id = some u →
      ∃ c op k, cfg.threads u = .running c (.call op k) ∧ Hub.Waits cfg.world u op ∧
        cfg.Did u (.deleteRow id) (.ok 1) := by
    intro id u hu
    obtain ⟨c, p, hrun, hcall⟩ := holder_call hr h₀ hu
    obtain ⟨op, k, rfl, hw⟩ := waits_of_stuck hstuck hrun
    obtain ⟨hno, -⟩ := waits_for h₀ hr hrun hw
    rw [hno] at hcall
    exact ⟨c, op, k, hrun, hw, hcall.resolve_left (by simp)⟩
  obtain ⟨t, c₀, p₀, ht⟩ := hb
  obtain ⟨op₀, k₀, rfl, hw₀⟩ := waits_of_stuck hstuck ht
  obtain ⟨-, id₀, u, hu, -⟩ := waits_for h₀ hr ht hw₀
  obtain ⟨c, op, k, hrun, hw, hdel⟩ := holder hu
  obtain ⟨-, id, v, hv, ⟨up, rfl⟩ | ⟨rfl, hne, r, hrow⟩⟩ := waits_for h₀ hr hrun hw
  · exfalso
    obtain ⟨pre, -, hm⟩ := (script_holds lib svc).past hr (by rw [Config.call?, hrun]; rfl) hdel
    obtain ⟨req, -, -, rfl, -⟩ := authorize_of_deleteRow hm
    exact (script_holds lib svc).must hr hrun
  · obtain ⟨c', op', k', hrun', -, hdel'⟩ := holder hv
    exact ⟨u, v, c, c', _, _, hne.symm, hrun, hrun', rivals_of_wait h₀ hr hrun hrun' hdel' hrow⟩

/-- No two calls that run now are rivals. -/
def NoRivals (cfg : Config (system lib svc)) : Prop :=
  ∀ {t u c c' p p'}, cfg.threads t = .running c p → cfg.threads u = .running c' p' →
    Rivals lib svc c c' → t = u

theorem NoRivals.step {l : Label (system lib svc)} (h : NoRivals cfg) (hl : Going cfg l)
    (hs : Step (system lib svc) cfg l cfg') : NoRivals cfg' := by
  intro t u c c' p p' ht hu hriv
  obtain ⟨q, hq⟩ := hs.running_before hl.own ht
  obtain ⟨q', hq'⟩ := hs.running_before hl.own hu
  exact h hq hq' hriv

/-- **Every run comes to an end.** However the calls that have started go on, as long as no statement
fails they all return, or they panic. Two authorizations of one account must not run at once: each
could hold a row that the other one deletes. -/
theorem runs_end (h₀ : w₀.Idle) (hr : Reach (system lib svc) (· = w₀) ok cfg) (hn : NoRivals cfg) :
    Ends Going cfg := by
  obtain ⟨F, hF⟩ := hr.exists_started
  have hr' : Reach (system lib svc) (· = w₀) (fun _ _ => True) cfg := hr.mono fun _ _ _ => trivial
  refine Ends.of_live (I := fun cfg => Reach (system lib svc) (· = w₀) (fun _ _ => True) cfg ∧ NoRivals cfg)
    Going.own ?_ ?_ hF ⟨hr', hn⟩
  · intro cfg l cfg' h hl hs
    exact ⟨.step h.1 trivial hs, NoRivals.step h.2 hl hs⟩
  · intro cfg h hb
    by_contra hstuck
    push Not at hstuck
    obtain ⟨u, v, c, c', p, p', hne, hu, hv, hriv⟩ := rivals_of_stuck h₀ h.1 hb hstuck
    exact hne (h.2 hu hv hriv)

/-! ## A disconnect that waits for an authorization -/

/-- An authorization has deleted the row that a disconnect wants to revoke. -/
def waitingDisconnect : List (Label (system mailCrates mailService)) :=
  [.start 0 (.authorize mailAuthorize), .op 0 (.randomBytes 48) (List.replicate 48 (0 : UInt8)),
    .op 0 .newUuid (2 : Nat), .op 0 .begin (.ok ()),
    .op 0 (.deleteSnapshot "gmail" "user@example.com") (.ok [1]), .op 0 (.deleteRow 1) (.ok (1 : Nat)),
    .start 1 (.disconnect 9 1), .op 1 (.fetchAccount 1) (.ok (some mailRow)),
    .op 1 (.revoke mailScope) (.error ⟨OAuthCredentialFailure.codeNotFound, ""⟩)]

/-- Thread 1 is at its update. -/
def waitingDisconnectEnd (cfg : Config (system mailCrates mailService)) : Bool :=
  (match cfg.threads 1 with
    | .running (.disconnect ..) (.call (.update 1 .revoke) _) => true
    | _ => false) &&
  (Hub.txs cfg.world).holder 1 == some 0

theorem waitingDisconnect_runs : (replay (fun cfg l => mailRules cfg l) (.init mailHub)
    waitingDisconnect).any waitingDisconnectEnd = true := by
  decide +kernel

theorem runs_end_mailbox : ∃ cfg : Config (system mailCrates mailService),
    cfg.hist = waitingDisconnect.reverse ∧ Hub.Waits cfg.world 1 (.update 1 .revoke) ∧ Ends Going cfg := by
  obtain ⟨cfg, hr, hh, hend⟩ : ∃ cfg, Reach (system mailCrates mailService) (· = mailHub)
      (fun cfg l => mailRules cfg l) cfg ∧ cfg.hist = waitingDisconnect.reverse ∧
        waitingDisconnectEnd cfg = true := by
    refine Reach.exists_of_replay ?_ waitingDisconnect_runs
    rfl
  simp only [waitingDisconnectEnd, Bool.and_eq_true, beq_iff_eq] at hend
  refine ⟨cfg, hh, .update hend.2, runs_end mailHub_idle hr ?_⟩
  -- thread 0 is the only authorization
  have alone : ∀ {t req p}, cfg.threads t = .running (.authorize req) p → t = 0 := by
    intro t req p ht
    have hstart := hr.start_of_call (show cfg.call? t = some (.authorize req) by rw [Config.call?, ht]; rfl)
    have hstart : t = 0 ∧ req = mailAuthorize := by simpa [hh, waitingDisconnect] using hstart
    exact hstart.1
  rintro t u c c' p p' ht hu ⟨req, req', -, -, rfl, rfl, -⟩
  rw [alone ht, alone hu]

/-! ## Two authorizations that wait for each other -/

theorem Hub.not_answers_of_held {w : Hub} {t u : Tid} {id : Uuid} (hr : (w.accounts.lookup id).isSome)
    (hu : w.txs.holder id = some u) (hne : u ≠ t) : ¬ w.Answers t (.deleteRow id) := by
  obtain ⟨r, hr⟩ := Option.isSome_iff_exists.mp hr
  rintro ⟨err | n, w', ha, -, hn⟩
  · cases ha
  · simp [next, hr, Txs.FreeFor, hu, hne] at hn

/-- One authorization up to the lock of a first row, after it found the rows `ids`. -/
def authorizeUpTo (t : Tid) (id : Uuid) (ids : List Uuid) : List (Label (system mailCrates mailService)) :=
  [.start t (.authorize mailAuthorize), .op t (.randomBytes 48) (List.replicate 48 (0 : UInt8)),
    .op t .newUuid id, .op t .begin (.ok ()),
    .op t (.deleteSnapshot "gmail" "user@example.com") (.ok ids)]

/-- Two authorizations find no row, so both insert one. The next two find both rows, and take them in
different orders. -/
def crossedDeletes : List (Label (system mailCrates mailService)) :=
  authorizeUpTo 0 1 [] ++ authorizeUpTo 1 2 [] ++
  [.op 0 (.insertAccount mailNewRow) (.ok ()), .op 0 .commit (.ok ()),
    .op 1 (.insertAccount { mailNewRow with id := 2 }) (.ok ()), .op 1 .commit (.ok ()),
    .op 0 (.randomBytes 16) (List.replicate 16 (0 : UInt8)), .op 0 .utcNow (0 : Int), .finish 0,
    .op 1 (.randomBytes 16) (List.replicate 16 (0 : UInt8)), .op 1 .utcNow (0 : Int), .finish 1] ++
  authorizeUpTo 2 3 [1, 2] ++ [.op 2 (.deleteRow 1) (.ok (1 : Nat))] ++
  authorizeUpTo 3 4 [2, 1] ++ [.op 3 (.deleteRow 2) (.ok (1 : Nat))]

/-- Each of the threads 2 and 3 is at the row that the other one holds. -/
def crossedDeletesEnd (cfg : Config (system mailCrates mailService)) : Bool :=
  (match cfg.threads 0, cfg.threads 1 with | .done .., .done .. => true | _, _ => false) &&
  (match cfg.threads 2 with | .running _ (.call (.deleteRow 2) _) => true | _ => false) &&
  (match cfg.threads 3 with | .running _ (.call (.deleteRow 1) _) => true | _ => false) &&
  (Hub.txs cfg.world).holder 1 == some 2 && (Hub.txs cfg.world).holder 2 == some 3 &&
  ((Hub.accounts cfg.world).lookup 1).isSome && ((Hub.accounts cfg.world).lookup 2).isSome

theorem crossedDeletes_runs : (replay (fun cfg l => mailRules cfg l) (.init newHub)
    crossedDeletes).any crossedDeletesEnd = true := by
  decide +kernel

/-- Two authorizations of one account can lock each other out. -/
theorem authorizations_deadlock : ∃ cfg : Config (system mailCrates mailService),
    Reach (system mailCrates mailService) (· = newHub) (fun cfg l => mailRules cfg l) cfg ∧ cfg.Busy ∧
      ¬ Ends Going cfg := by
  obtain ⟨cfg, hr, hh, hend⟩ : ∃ cfg, Reach (system mailCrates mailService) (· = newHub)
      (fun cfg l => mailRules cfg l) cfg ∧ cfg.hist = crossedDeletes.reverse ∧
        crossedDeletesEnd cfg = true := by
    refine Reach.exists_of_replay ?_ crossedDeletes_runs
    rfl
  simp only [crossedDeletesEnd, Bool.and_eq_true, beq_iff_eq] at hend
  obtain ⟨⟨⟨⟨⟨⟨hover, h2⟩, h3⟩, hlock1⟩, hlock2⟩, hrow1⟩, hrow2⟩ := hend
  -- Each of the two holds the row that the other one deletes next.
  have held : ∀ {t c p}, cfg.threads t = .running c p → ∃ id k, p = .call (.deleteRow id) k ∧
      ¬ Hub.Answers cfg.world t (.deleteRow id) := by
    intro t c p ht
    have hstart := hr.start_of_call (show cfg.call? t = some c by rw [Config.call?, ht]; rfl)
    simp only [hh, crossedDeletes, authorizeUpTo, List.mem_reverse, List.mem_append, List.mem_cons,
      Label.start.injEq, reduceCtorEq, List.not_mem_nil, or_false] at hstart
    rcases hstart with (((⟨rfl, -⟩ | ⟨rfl, -⟩) | ⟨rfl, -⟩) | ⟨rfl, -⟩)
    · rw [ht] at hover
      cases hover
    · rw [ht] at hover
      split at hover <;> simp_all
    · rw [ht] at h2
      split at h2
      · cases ‹Thread.running c p = _›
        exact ⟨2, _, rfl, Hub.not_answers_of_held hrow2 hlock2 (by decide)⟩
      · cases h2
    · rw [ht] at h3
      split at h3
      · cases ‹Thread.running c p = _›
        exact ⟨1, _, rfl, Hub.not_answers_of_held hrow1 hlock1 (by decide)⟩
      · cases h3
  have hb : cfg.Busy := by
    split at h2
    · exact ⟨2, _, _, ‹_›⟩
    · cases h2
  refine ⟨cfg, hr, hb, ?_⟩
  rintro ⟨live, -⟩
  obtain ⟨l, cfg', hl, hs⟩ := live hb
  cases hs with
  | start | env => exact hl.elim
  | op ht hw =>
    obtain ⟨id, k, hp, hno⟩ := held ht
    cases hp
    exact hno ⟨_, _, hl.1, hl.2, hw⟩
  | finish ht =>
    obtain ⟨id, k, hp, -⟩ := held ht
    cases hp
  | crash ht =>
    obtain ⟨c, k, ht⟩ := hl
    obtain ⟨id, k, hp, -⟩ := held ht
    cases hp

end BackboneIntegrations.OAuth
