import BackboneIntegrations.OAuth.Agree
import BackboneIntegrations.OAuth.Lifecycle
import BackboneIntegrations.OAuth.Turns

/-!
# The expiry mirror

With one call at a time, the expiry of an active row is the expiry of the current credential of
its scope.
-/

open Interleave

namespace BackboneIntegrations.OAuth

/-! ## The invariant -/

/-- Every active row has a current credential that fits it. A scope has one row. -/
structure Paired (fits : Account → Credential → Prop) (co : Uuid) (T : Accounts) (cs : Credentials) :
    Prop where
  pair : ∀ id r, T.lookup id = some r → r.status = .active →
    ∃ c, cs.current (r.scope co) = some c ∧ fits r c
  unique : ∀ id id' r r', T.lookup id = some r → T.lookup id' = some r' → r.key = r'.key → id = id'

namespace Paired

variable {fits : Account → Credential → Prop} {co : Uuid} {T T' : Accounts} {cs cs' : Credentials}
  {id : Uuid} {r r' : Account}

theorem update (h : Paired fits co T cs) (hr : T.lookup id = some r)
    (hT : ∀ x, T'.lookup x = if x = id then some r' else T.lookup x) (hk : r'.key = r.key)
    (ha : r'.status = .active → ∃ c, cs'.current (r'.scope co) = some c ∧ fits r' c)
    (hcs : ∀ s, s ≠ r.scope co → cs'.current s = cs.current s) : Paired fits co T' cs' := by
  have hold : ∀ x s, T'.lookup x = some s → ∃ s', T.lookup x = some s' ∧ s.key = s'.key := by
    intro x s hs
    rw [hT] at hs
    split at hs
    · cases hs
      subst_vars
      exact ⟨r, hr, hk⟩
    · exact ⟨s, hs, rfl⟩
  refine ⟨fun x s hs hact => ?_, fun x y s s' hs hs' hkey => ?_⟩
  · rw [hT] at hs
    split at hs
    · cases hs
      exact ha hact
    · obtain ⟨c, hc, he⟩ := h.pair x s hs hact
      refine ⟨c, ?_, he⟩
      rw [hcs, hc]
      intro hscope
      exact ‹¬ x = id› (h.unique x id s r hs hr (scope_eq_iff.mp hscope))
  · obtain ⟨s₁, hs₁, hk₁⟩ := hold x s hs
    obtain ⟨s₂, hs₂, hk₂⟩ := hold y s' hs'
    exact h.unique x y s₁ s₂ hs₁ hs₂ (by rw [← hk₁, ← hk₂, hkey])

theorem put (h : Paired fits co T cs) (hr : T.lookup id = some r) (hk : r'.key = r.key)
    (ha : r'.status = .active → ∃ c, cs.current (r'.scope co) = some c ∧ fits r' c) :
    Paired fits co (T.insert id r') cs :=
  h.update hr (fun _ => Table.lookup_insert_ite ..) hk ha fun _ _ => rfl

theorem stored (h : Paired fits co T cs) (hr : T.lookup id = some r) (hk : r'.key = r.key)
    {b : TokenBundle} {e : Time} (hfits : fits r' ⟨r.scope co, purposeOauthToken, b, e, true⟩)
    (hcs : ∀ s, s ≠ r.scope co → cs'.current s = cs.current s) :
    Paired fits co (T.insert id r') (⟨r.scope co, purposeOauthToken, b, e, true⟩ :: cs') := by
  refine h.update hr (fun _ => Table.lookup_insert_ite ..) hk (fun _ => ?_) fun s hs => ?_
  · rw [scope_eq_iff.mpr hk, Credentials.current_cons]
    exact ⟨_, rfl, hfits⟩
  · rw [Credentials.current_cons_ne (Ne.symm hs), hcs s hs]

theorem rotated (h : Paired fits co T cs) (hr : T.lookup id = some r) (hk : r'.key = r.key)
    {b : TokenBundle} {e : Time} (hfits : fits r' ⟨r.scope co, purposeOauthToken, b, e, true⟩) :
    Paired fits co (T.insert id r')
      (⟨r.scope co, purposeOauthToken, b, e, true⟩ :: cs.withdraw (r.scope co)) :=
  h.stored hr hk hfits fun _ hs => Credentials.current_withdraw_ne hs

theorem completed (h : Paired fits co T cs) (hr : T.lookup id = some r) (hk : r'.key = r.key)
    {b : TokenBundle} {e : Time} (hfits : fits r' ⟨r.scope co, purposeOauthToken, b, e, true⟩)
    (hcs : cs.current (r.scope co) = none ∧ cs' = cs ∨ cs' = cs.withdraw (r.scope co)) :
    Paired fits co (T.insert id r') (⟨r.scope co, purposeOauthToken, b, e, true⟩ :: cs') := by
  rcases hcs with ⟨-, rfl⟩ | rfl
  · exact h.stored hr hk hfits fun _ _ => rfl
  · exact h.rotated hr hk hfits

theorem disconnected (h : Paired fits co T cs) (hr : T.lookup id = some r)
    (hT : if StatusUpdate.revoke.guard r.status then T' = T.insert id (StatusUpdate.revoke.set r)
      else T' = T) (hcs : cs' = cs.withdraw (r.scope co) ∨ cs' = cs) : Paired fits co T' cs' := by
  -- the row that stays is not active
  obtain ⟨r', hT', hk, hs⟩ : ∃ r', (∀ x, T'.lookup x = if x = id then some r' else T.lookup x) ∧
      r'.key = r.key ∧ r'.status ≠ .active := by
    split at hT
    · exact ⟨StatusUpdate.revoke.set r, fun x => by rw [hT, Table.lookup_insert_ite], rfl, by rintro ⟨⟩⟩
    · rename_i hg
      refine ⟨r, fun x => ?_, rfl, fun ha => absurd (by rw [ha]; rfl) hg⟩
      rw [hT]
      split
      · subst_vars
        exact hr
      · rfl
  refine h.update hr hT' hk (fun ha => absurd ha hs) fun s hne => ?_
  rcases hcs with rfl | rfl
  · exact Credentials.current_withdraw_ne hne
  · rfl

theorem replaced (h : Paired fits co T cs) {row : NewAccount} {ids : List Uuid}
    (hids : ∀ id, id ∈ ids ↔ ∃ r, T.lookup id = some r ∧ r.key = (row.provider, row.accountRef))
    (hT : ∀ x, T'.lookup x =
      if x = row.id then some row.toAccount else if x ∈ ids then none else T.lookup x) :
    Paired fits co T' cs := by
  have hold : ∀ x s, x ≠ row.id → T'.lookup x = some s →
      T.lookup x = some s ∧ s.key ≠ (row.provider, row.accountRef) := by
    intro x s hx hs
    rw [hT, if_neg hx] at hs
    split at hs
    · cases hs
    · exact ⟨hs, fun hk => ‹x ∉ ids› ((hids x).mpr ⟨s, hs, hk⟩)⟩
  have hnew : ∀ s, T'.lookup row.id = some s → s = row.toAccount := by
    intro s hs
    rw [hT, if_pos rfl] at hs
    exact (Option.some.inj hs).symm
  refine ⟨fun x s hs ha => ?_, fun x y s s' hs hs' hk => ?_⟩
  · by_cases hx : x = row.id
    · subst hx
      rw [hnew s hs] at ha
      cases ha
    · exact h.pair x s (hold x s hx hs).1 ha
  -- The rows that had the key are gone, so the new row is the only one with it.
  · by_cases hx : x = row.id <;> by_cases hy : y = row.id
    · rw [hx, hy]
    · subst hx
      rw [hnew s hs] at hk
      exact absurd hk.symm (hold y s' hy hs').2
    · subst hy
      rw [hnew s' hs'] at hk
      exact absurd hk (hold x s hx hs).2
    · exact h.unique x y s s' (hold x s hx hs).1 (hold y s' hy hs').1 hk

end Paired

/-- Every active row has a current credential, with the expiry of the row. A scope has one row. -/
structure Mirrored (co : Uuid) (T : Accounts) (cs : Credentials) : Prop where
  mirror : ∀ id r, T.lookup id = some r → r.status = .active →
    ∃ c, cs.current (r.scope co) = some c ∧ r.expiresAt = some c.expiresAt
  unique : ∀ id id' r r', T.lookup id = some r → T.lookup id' = some r' → r.key = r'.key → id = id'
  honest : ∀ c ∈ cs, c.live → c.bundle.expiresAt = c.expiresAt

namespace Mirrored

variable {co : Uuid}

theorem paired {T : Accounts} {cs : Credentials} (h : Mirrored co T cs) :
    Paired (fun r c => r.expiresAt = some c.expiresAt) co T cs :=
  ⟨h.mirror, h.unique⟩

theorem of_paired {T : Accounts} {cs : Credentials}
    (h : Paired (fun r c => r.expiresAt = some c.expiresAt) co T cs)
    (hh : ∀ c ∈ cs, c.live → c.bundle.expiresAt = c.expiresAt) : Mirrored co T cs :=
  ⟨h.pair, h.unique, hh⟩

theorem honest_cons {cs cs' : Credentials} {scope : CredentialScope} {b : TokenBundle}
    (h : ∀ c ∈ cs, c.live → c.bundle.expiresAt = c.expiresAt) (hlive : ∀ c ∈ cs', c.live → c ∈ cs) :
    ∀ c ∈ (⟨scope, purposeOauthToken, b, b.expiresAt, true⟩ :: cs' : Credentials), c.live →
      c.bundle.expiresAt = c.expiresAt := by
  intro c hc hl
  rcases List.mem_cons.mp hc with rfl | hc
  · rfl
  · exact h c (hlive c hc hl) hl

/-- Every turn keeps the mirror. -/
theorem kept : Kept co (Mirrored co) := by
  intro T cs T' cs' hturn h
  -- A completion and a rotation store what the row then says. An expiry ends the row, a resync
  -- copies the bundle.
  cases hturn with
  | replace hids hT => exact of_paired (h.paired.replaced hids hT) h.honest
  | @complete g refresh r cs' hr hp hcs =>
    refine of_paired (h.paired.completed hr (StatusUpdate.set_key ..) rfl hcs) ?_
    refine honest_cons (b := g.bundle refresh) h.honest fun c hc hl => ?_
    rcases hcs with ⟨-, rfl⟩ | rfl
    · exact hc
    · exact Credentials.live_of_withdraw hc hl
  | disconnect hr hT hcs =>
    refine of_paired (h.paired.disconnected hr hT hcs) fun c hc hl => ?_
    rcases hcs with rfl | rfl
    · exact h.honest c (Credentials.live_of_withdraw hc hl) hl
    · exact h.honest c hc hl
  | @expire id r u now hr hu =>
    refine of_paired (h.paired.put hr (ClaimedUpdate.set_key ..) fun ha => ?_) h.honest
    cases u <;> first | cases ha | cases hu
  | @resync id r c now hr hc =>
    refine of_paired (h.paired.put hr rfl fun _ => ⟨c, hc, ?_⟩) h.honest
    obtain ⟨hmem, -, hlive⟩ := Credentials.current_mem hc
    rw [← h.honest c hmem hlive]
    rfl
  | @rotate id r c response e now u hr ha hc hu =>
    refine of_paired (h.paired.rotated hr (ClaimedUpdate.set_key ..) ?_) ?_
    · rcases hu with ⟨now, rfl⟩ | rfl
      · rfl
      · rfl
    · exact honest_cons (b := RefreshJob.successor c.bundle response e) h.honest
        fun c hc hl => Credentials.live_of_withdraw hc hl

end Mirrored

/-! ## Between two calls -/

variable {lib : Crates} {svc : IntegrationsOauthService} {co : Uuid}
  {cfg : Config (system lib svc)}

/-- **The expiry mirror agrees.** With one call at a time, between any two calls each active row has a
current credential for its account, and the two have one expiry. -/
theorem expiry_mirror_agreement {init : Hub → Prop} (hinit : ∀ w, init w → Rest (Mirrored co) w)
    (hr : Reach (system lib svc) init
      (OneAtATime (ScopeCall co) (· = .panic) storeAnswers) cfg)
    (hq : ∀ t, (cfg.threads t).Quiet) {id : Uuid} {r : Account}
    (hrow : cfg.world.accounts.lookup id = some r) (ha : r.status = .active) :
    ∃ c, cfg.world.current (r.scope co) = some c ∧ r.expiresAt = some c.expiresAt :=
  ((turns_solo Mirrored.kept).solos.rest_of_quiet hinit hr hq).keeps.mirror id r hrow ha

/-! ## A completion and a refresh -/

/-- The provider's answer to a refresh has no refresh token. -/
def mailRefreshed : TokenResponse := ⟨"access-2", none, some 3600, none, none⟩

/-- The bundle that the refresh stores. -/
def mailSuccessor : TokenBundle :=
  RefreshJob.successor mailBundle mailRefreshed 6700000000

/-- The account is completed, and at 3,100 seconds `refresh_due` renews it. -/
def mailRenewal : List (Label (system mailCrates mailService)) :=
  [.start 0 (.complete 9 mailRequest), .op 0 .utcNow (0 : Int),
    .op 0 (.fetchAccount 1) (.ok (some mailRow)),
    .op 0 (.fetchVerifier 1) (.ok (some (some "verifier"))),
    .op 0 (.exchange gmailToken mailForm) (.ok mailResponse), .op 0 .utcNow (0 : Int),
    .op 0 (.fetchIdentity gmailUserinfo "access-1") (.ok (mailIdentity "user@example.com")),
    .op 0 (.issue mailScope purposeOauthToken mailBundle 3600000000) (.ok (77 : Nat)),
    .op 0 (.update 1 (.activate "" 3600000000 0)) (.ok (1 : Nat)), .finish 0,
    .env (.tick 3100000000),
    .start 1 (.refreshDue 9), .op 1 .begin (.ok ()),
    .op 1 (.claimDue 600 []) (.ok (some dueAccount)),
    .op 1 (.readToken mailScope) (.ok mailBundle), .op 1 .utcNow (3100000000 : Int),
    .op 1 (.exchange gmailToken mailRefreshForm) (.ok mailRefreshed),
    .op 1 .utcNow (3100000000 : Int),
    .op 1 (.rotate mailScope mailSuccessor 6700000000) (.ok (78 : Nat)),
    .op 1 (.updateTx 1 (.mirror 6700000000 gmailAdapter.defaultScopes 3100000000)) (.ok (1 : Nat)),
    .op 1 .commit (.ok ()), .op 1 .begin (.ok ()), .op 1 (.claimDue 600 []) (.ok none),
    .op 1 .commit (.ok ()), .finish 1]

def mailRenewed : Account :=
  ⟨"gmail", "user@example.com", .active, gmailAdapter.defaultScopes, none, some 6700000000,
    some 3100000000⟩

/-- Both calls are over, and the row is renewed. -/
def mailRenewalEnd (cfg : Config (system mailCrates mailService)) : Bool :=
  decide (∀ t : Nat, t < 2 → (cfg.threads t).Quiet) &&
    (Hub.accounts cfg.world).lookup 1 == some mailRenewed

theorem mailRenewal_runs : (replay (OneOf 2 (ScopeCall 9) storeAnswers) (.init mailHub)
    mailRenewal).any mailRenewalEnd = true := by
  decide +kernel

theorem mailHub_rest : Rest (Mirrored 9) mailHub where
  keeps :=
    { mirror := fun id r hr ha => by
        obtain ⟨-, rfl⟩ := mailHub_row hr
        cases ha
      unique := fun id id' r r' hr hr' _ => by
        obtain ⟨rfl, -⟩ := mailHub_row hr
        obtain ⟨rfl, -⟩ := mailHub_row hr'
        rfl
      honest := nofun }
  writes _ := rfl

theorem expiry_mirror_agreement_mailbox : ∃ cfg : Config (system mailCrates mailService),
    cfg.hist = mailRenewal.reverse ∧ ∃ c, cfg.world.current mailScope = some c ∧
      some 6700000000 = some c.expiresAt := by
  obtain ⟨cfg, hr, hh, hend⟩ : ∃ cfg, Reach (system mailCrates mailService) (· = mailHub)
      (OneOf 2 (ScopeCall 9) storeAnswers) cfg ∧ cfg.hist = mailRenewal.reverse ∧
        mailRenewalEnd cfg = true := by
    refine Reach.exists_of_replay ?_ mailRenewal_runs
    rfl
  simp only [mailRenewalEnd, Bool.and_eq_true, decide_eq_true_eq, beq_iff_eq] at hend
  obtain ⟨hquiet, hrow⟩ := hend
  obtain ⟨hone, hidle⟩ := hr.one_at_a_time
  have hq : ∀ t, (cfg.threads t).Quiet := by
    intro t
    by_cases ht : t < 2
    · exact hquiet t ht
    · rw [hidle t (Nat.le_of_not_lt ht)]
      trivial
  have hinit : ∀ w, w = mailHub → Rest (Mirrored 9) w := fun w hw => hw ▸ mailHub_rest
  exact ⟨cfg, hh, expiry_mirror_agreement hinit hone hq hrow rfl⟩

end BackboneIntegrations.OAuth
