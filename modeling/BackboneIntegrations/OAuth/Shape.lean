import BackboneIntegrations.OAuth.Lifecycle

/-!
# The shape of an account row

Which columns are null follows from the status. The updates of the refresh paths keep the
shape because they meet only active rows.
-/

open Interleave

namespace BackboneIntegrations.OAuth

open IntegrationsOauthService

variable {lib : Crates} {svc : IntegrationsOauthService} {w₀ : Hub}
  {ok : Config (system lib svc) → Label (system lib svc) → Prop} {cfg cfg' : Config (system lib svc)}

/-- The status of a row that has been activated and not revoked. -/
def Account.Connected (r : Account) : Prop := r.status = .active ∨ r.status = .expired

structure Account.Shaped (registry : ProviderRegistry) (r : Account) : Prop where
  verifier : r.pkceVerifier ≠ none → r.status = .pending
  pkce : r.status = .pending → ∀ a ∈ registry.lookup r.provider, a.pkceS256 → r.pkceVerifier ≠ none
  unset : r.status = .pending → r.expiresAt = none ∧ r.lastRefreshedAt = none
  stamped : r.Connected → r.expiresAt ≠ none ∧ r.lastRefreshedAt ≠ none

variable {registry : ProviderRegistry} {r : Account}

theorem Account.Connected.not_pending (h : r.Connected) : r.status ≠ .pending := by
  intro hp
  rcases h with h | h <;> rw [hp] at h <;> cases h

theorem Account.Shaped.settled (hv : r.pkceVerifier = none) (hp : r.status ≠ .pending)
    (ht : r.Connected → r.expiresAt ≠ none ∧ r.lastRefreshedAt ≠ none) : r.Shaped registry where
  verifier h := absurd hv h
  pkce h := absurd h hp
  unset h := absurd h hp
  stamped := ht

theorem Account.Shaped.no_verifier (h : r.Shaped registry) (hp : r.status ≠ .pending) :
    r.pkceVerifier = none := by
  by_contra hv
  exact hp (h.verifier hv)

theorem StatusUpdate.set_shaped (u : StatusUpdate) (r : Account) : (u.set r).Shaped registry := by
  cases u with
  | activate scopes expiresAt now =>
    exact .settled rfl (by simp [set]) fun _ => by simp [set]
  | revoke =>
    refine .settled rfl (by simp [set]) fun h => ?_
    rcases h with h | h <;> cases h

theorem ClaimedUpdate.set_connected {u : ClaimedUpdate} {now : Time} (h : r.Connected) :
    (u.set now r).Connected := by
  unfold Account.Connected
  rw [u.set_status]
  split
  · exact .inr rfl
  · exact h

theorem ClaimedUpdate.set_shaped {u : ClaimedUpdate} {now : Time} (h : r.Shaped registry)
    (hc : r.Connected) : (u.set now r).Shaped registry := by
  obtain ⟨he, hl⟩ := h.stamped hc
  have hv := h.no_verifier hc.not_pending
  refine .settled ?_ (set_connected hc).not_pending fun _ => ?_
  · cases u <;> first | rfl | exact hv
  · cases u with
    | expireActive | expire => exact ⟨he, hl⟩
    | resync expiresAt => exact ⟨by simp [set], hl⟩
    | mirror expiresAt scopes refreshedAt | mirrorNow expiresAt => simp [set]

theorem NewAccount.toAccount_shaped {row : NewAccount}
    (h : ∀ a ∈ registry.lookup row.provider, a.pkceS256 → row.pkceVerifier ≠ none) :
    row.toAccount.Shaped registry where
  verifier _ := rfl
  pkce _ := h
  unset _ := ⟨rfl, rfl⟩
  stamped h := by rcases h with h | h <;> cases h

theorem row_shaped {req : AuthorizeRequest} {a : Admitted}
    (ha : svc.admitRequest lib req = .ok a) {row : NewAccount} (h : a.Row row) :
    row.toAccount.Shaped svc.registry := by
  obtain ⟨verifier, hv, hrow⟩ := h
  obtain ⟨-, -, hadapter, -⟩ := admitRequest_ok ha
  rw [hrow]
  refine NewAccount.toAccount_shaped fun adapter hlook hp => ?_
  cases Option.mem_unique hlook hadapter
  rw [hp] at hv
  exact Option.isSome_iff_ne_none.mp hv

def Hub.Shaped (registry : ProviderRegistry) (w : Hub) : Prop :=
  ∀ id, ∀ r ∈ w.accounts.lookup id, r.Shaped registry

theorem shaped_commit (h₀ : w₀.Idle) (hr : Reach (system lib svc) (· = w₀) ok cfg)
    (h : Hub.Shaped svc.registry cfg.world) (t : Tid) :
    Hub.Shaped svc.registry (Hub.commit cfg.world t) := by
  intro id r hrow
  have hminted := minted_of_reach h₀ hr
  have hlocked := locked_of_reach h₀ hr
  -- rows with an open update are connected, from the first write of the commit to its last
  let P (r : Account) : Prop := r.Shaped svc.registry ∧
    ((∃ u now, .update id u now ∈ (Hub.txs cfg.world).writes t) → r.Connected)
  have hP : P r := by
    refine Hub.foldl_rows (P := P) ?_ ?_ ?_ hrow
    · intro r hr₀
      refine ⟨h id r hr₀, ?_⟩
      rintro ⟨u, now, hm⟩
      obtain ⟨r', hr', hs⟩ := Hub.status?_eq_some.mp (hlocked.active hm)
      rw [hr₀] at hr'
      cases hr'
      exact .inl hs
    · rintro row hm rfl
      obtain ⟨req, a, -, ha, hrow⟩ := insert_row hr h₀ hm
      refine ⟨row_shaped ha hrow, ?_⟩
      rintro ⟨u, now, hm'⟩
      have hs := hlocked.active hm'
      rw [hminted.absent hm] at hs
      cases hs
    · intro u now r hm ⟨hshape, hcon⟩
      have hc := hcon ⟨u, now, hm⟩
      exact ⟨ClaimedUpdate.set_shaped hshape hc, fun _ => ClaimedUpdate.set_connected hc⟩
  exact hP.1

theorem shaped_op (h₀ : w₀.Idle) (hr : Reach (system lib svc) (· = w₀) ok cfg)
    (h : Hub.Shaped svc.registry cfg.world) {t : Tid} {op : Op} {ans : Ans op} {w' : Hub}
    (hc : Hub.Change t cfg.world op ans w') : w'.Shaped svc.registry := by
  cases hc with
  | commit => exact shaped_commit h₀ hr h t
  | @update x u r hrow hfree =>
    intro id r' hr'
    simp only [Hub.setStatus, Table.lookup_insert_ite, Option.mem_def] at hr'
    split at hr'
    · cases hr'
      exact u.set_shaped r
    · exact h id r' hr'
  | _ => exact h

/-- **The shape of an account row.** In every reachable state, whatever calls run at the same time, the
null columns of each row are those of its status. -/
theorem account_shape (h₀ : w₀.Idle) (hshape : w₀.Shaped svc.registry)
    (hr : Reach (system lib svc) (· = w₀) ok cfg) : Hub.Shaped svc.registry cfg.world := by
  induction hr with
  | init h =>
    subst h
    exact hshape
  | @step cfg l cfg' h _ hs ih =>
    by_cases hl : ∃ t op ans, l = .op t op ans
    · obtain ⟨t, op, ans, rfl⟩ := hl
      exact shaped_op h₀ h ih (step_change hs)
    · push Not at hl
      intro id r hrow
      rw [Option.mem_def, (step_beside hs hl).accounts] at hrow
      exact ih id r hrow

theorem account_shape_mailbox : ∃ cfg : Config (system mailCrates mailService),
    Hub.status? cfg.world 1 = some .revoked ∧ Hub.Shaped mailService.registry cfg.world := by
  obtain ⟨cfg, e, hr, -, -, -, hs, -⟩ := mailRace_reach
  have hshape : mailHub.Shaped mailService.registry := by
    intro id r hrow
    obtain ⟨-, rfl⟩ := mailHub_row hrow
    constructor
    · exact fun _ => rfl
    · exact fun _ _ _ _ => by simp
    · exact fun _ => ⟨rfl, rfl⟩
    · rintro (h | h) <;> cases h
  exact ⟨cfg, hs, account_shape mailHub_idle hshape hr⟩

end BackboneIntegrations.OAuth
