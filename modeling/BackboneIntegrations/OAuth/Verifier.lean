import BackboneIntegrations.OAuth.Activation
import BackboneIntegrations.OAuth.Binding

/-!
# The use of a PKCE verifier

A row holds its verifier exactly as long as it is pending. An exchange does not end that: the
update that ends `complete` does, after the identity checks and the store write.
-/

open Interleave

namespace BackboneIntegrations.OAuth

open IntegrationsOauthService

variable {lib : Crates} {svc : IntegrationsOauthService} {w₀ : Hub}
  {ok : Config (system lib svc) → Label (system lib svc) → Prop} {cfg cfg' : Config (system lib svc)}

/-! ## What a row holds -/

/-- The row holds the verifier that it was inserted with while it is pending, and none after that. -/
def Account.Holds (r : Account) (row : NewAccount) : Prop :=
  r.pkceVerifier = if r.status = .pending then row.pkceVerifier else none

theorem StatusUpdate.set_holds (u : StatusUpdate) (r : Account) (row : NewAccount) :
    (u.set r).Holds row := by
  cases u <;> rfl

theorem ClaimedUpdate.set_holds {r : Account} {row : NewAccount} (u : ClaimedUpdate) (now : Time)
    (h : r.Holds row) (hp : r.status ≠ .pending) : (u.set now r).Holds row := by
  have hnone : r.pkceVerifier = none := by simpa [Account.Holds, hp] using h
  cases u <;> simp [Account.Holds, ClaimedUpdate.set, hnone, hp]

theorem ClaimedUpdate.set_not_pending {r : Account} (u : ClaimedUpdate) (now : Time)
    (hp : r.status ≠ .pending) : (u.set now r).status ≠ .pending := by
  rw [set_status]
  split
  · simp
  · exact hp

theorem holds_commit (h₀ : w₀.Idle) (hr : Reach (system lib svc) (· = w₀) ok cfg) {t : Tid} {id : Uuid}
    (hold : ∀ r, (Hub.accounts cfg.world).lookup id = some r → Origin w₀ cfg id r.Holds) {r : Account}
    (h : (((Hub.txs cfg.world).writes t).foldl Hub.apply cfg.world).accounts.lookup id = some r) :
    Origin w₀ cfg id r.Holds := by
  have hlocked := locked_of_reach h₀ hr
  have active : ∀ {u now}, .update id u now ∈ (Hub.txs cfg.world).writes t →
      Hub.status? cfg.world id = some .active := fun hm => hlocked.active hm
  let P (r : Account) : Prop := Origin w₀ cfg id r.Holds ∧
    ∀ u now, .update id u now ∈ (Hub.txs cfg.world).writes t → r.status ≠ .pending
  refine (Hub.foldl_rows (P := P) ?_ ?_ ?_ h).1
  · intro r hr₀
    refine ⟨hold r hr₀, fun u now hm hp => ?_⟩
    have := active hm
    rw [Hub.status?, hr₀, Option.map_some, hp] at this
    cases this
  · intro row hm hid
    have hd : cfg.Did t (.insertAccount row) (.ok ()) := asked_of_writes hr h₀ hm
    refine ⟨.inr ⟨t, row, hd, hid, rfl⟩, fun u now hu => ?_⟩
    have := (minted_of_reach h₀ hr).absent hm
    rw [hid, active hu] at this
    cases this
  · rintro u now r hm ⟨ho, hp⟩
    refine ⟨ho.mono fun row hh => u.set_holds now hh (hp u now hm), fun u' now' hm' => ?_⟩
    exact u.set_not_pending now (hp u' now' hm')

theorem holds_of_row (h₀ : w₀.Idle) (hr : Reach (system lib svc) (· = w₀) ok cfg) {id : Uuid}
    {r : Account} (h : (Hub.accounts cfg.world).lookup id = some r) : Origin w₀ cfg id r.Holds := by
  induction hr generalizing r with
  | init hw =>
    subst hw
    exact .inl fun hnone => by simp [Hub.status?_eq_none.mp hnone] at h
  | @step cfg l cfg' hreach _ hs ih =>
    refine Origin.step ?_ hs
    by_cases hl : ∃ t op ans, l = .op t op ans
    · obtain ⟨t, op, ans, rfl⟩ := hl
      have hc := step_change hs
      generalize hw' : cfg'.world = w' at hc h
      cases hc with
      | commit => exact holds_commit h₀ hreach (fun r hr => ih hr) h
      | @update x u r₀ hrow hfree =>
        obtain ⟨hrow, -⟩ := Hub.statusTarget_eq_some.mp hrow
        simp only [Hub.setStatus, Table.lookup_insert_ite] at h
        split at h
        · cases h
          subst_vars
          exact (ih hrow).mono fun row _ => u.set_holds r₀ row
        · exact ih h
      | _ => exact ih h
    · push Not at hl
      rw [(step_beside hs hl).accounts] at h
      exact ih h

/-- The row of an authorization holds its verifier exactly while it is pending. -/
theorem verifier_held_iff (h₀ : w₀.Idle) (hr : Reach (system lib svc) (· = w₀) ok cfg) {u : Tid}
    {row : NewAccount} (hd : cfg.Did u (.insertAccount row) (.ok ())) (hv : row.pkceVerifier ≠ none)
    {r : Account} (h : (Hub.accounts cfg.world).lookup row.id = some r) :
    r.pkceVerifier = row.pkceVerifier ↔ r.status = .pending := by
  have hold : r.Holds row := (holds_of_row h₀ hr h).of_inserted h₀ hr hd rfl
  rw [hold]
  by_cases hp : r.status = .pending <;> simp [hp, Ne.symm hv]

/-! ## The exchanges of a verifier -/

/-- The step is an exchange of this row's verifier, for a completion of its account, and the provider
answers it with tokens. -/
def Redeems (cfg : Config (system lib svc)) (row : NewAccount) (l : Label (system lib svc)) : Prop :=
  ∃ t companyId req state endpoint form response,
    l = .op t (.exchange endpoint form) (.ok response) ∧
    cfg.call? t = some (.complete companyId req) ∧ svc.signer.binding lib req.state = .ok state ∧
    state.accountId = row.id ∧ row.pkceVerifier ≠ none ∧ form.codeVerifier = row.pkceVerifier

theorem Redeems.step {row : NewAccount} {l l' : Label (system lib svc)} (h : Redeems cfg row l)
    (hs : Step (system lib svc) cfg l' cfg') : Redeems cfg' row l := by
  obtain ⟨t, companyId, req, state, endpoint, form, response, hl, hc, hrest⟩ := h
  exact ⟨t, companyId, req, state, endpoint, form, response, hl, hs.keeps_call hc, hrest⟩

theorem redeems_step_iff (hr : Reach (system lib svc) (· = w₀) ok cfg) {row : NewAccount}
    {l l' : Label (system lib svc)} (hs : Step (system lib svc) cfg l' cfg')
    (hl : l = l' ∨ l ∈ cfg.hist) : Redeems cfg' row l ↔ Redeems cfg row l := by
  refine ⟨?_, fun h => h.step hs⟩
  rintro ⟨t, companyId, req, state, endpoint, form, response, rfl, hc, hrest⟩
  refine ⟨t, companyId, req, state, endpoint, form, response, rfl, ?_, hrest⟩
  have known : ∃ c, cfg.call? t = some c := by
    rcases hl with rfl | hm
    · cases hs with
      | @op t c op k ans w ht hw => exact ⟨c, by rw [Config.call?, ht, Thread.call?]⟩
    · exact (script_holds lib svc).call_of_did hr hm
  obtain ⟨c, hc'⟩ := known
  rw [hs.keeps_call hc'] at hc
  rwa [← hc]

theorem entered_of_redeems (h₀ : w₀.Idle) (hr : Reach (system lib svc) (· = w₀) ok cfg)
    {row : NewAccount} {l : Label (system lib svc)} (hm : l ∈ cfg.hist) (h : Redeems cfg row l) :
    Entered w₀ cfg row.id := by
  obtain ⟨t, companyId, req, state, endpoint, form, response, rfl, hc, hstate, hid, -⟩ := h
  obtain ⟨pre, hpre, state', r, adapter, v, hp⟩ := (script_holds lib svc).past hr hc hm
  have htok := hp.token
  rw [hstate] at htok
  cases htok
  have hread : cfg.Did t (.fetchAccount state.accountId) (.ok (some r)) :=
    mem_events.mp (hpre.subset (List.mem_cons_of_mem _ hp.read))
  rw [← hid]
  clear hm hc hpre hp
  induction hr with
  | init _ => cases hread
  | @step cfg l cfg' hreach _ hs ih =>
    refine Entered.step ?_ hs
    rcases hs.did.mp hread with rfl | hread
    · exact entered_of_status h₀ hreach (by simp [fetched_status hs])
    · exact ih hread

/-! ## One exchange for each verifier -/

/-- What the schema says of the column: the verifier is for one exchange, which consumes it. -/
structure SingleUse (cfg : Config (system lib svc)) : Prop where
  once : ∀ {row u}, cfg.Did u (.insertAccount row) (.ok ()) →
    cfg.hist.Pairwise fun l l' => ¬ (Redeems cfg row l ∧ Redeems cfg row l')
  consumed : ∀ {row u l r}, cfg.Did u (.insertAccount row) (.ok ()) → l ∈ cfg.hist → Redeems cfg row l →
    (Hub.accounts cfg.world).lookup row.id = some r → r.pkceVerifier ≠ row.pkceVerifier

/-- When the provider answers an exchange with tokens, the account is not pending any more, and no
other completion had its answer for it. -/
def Outrun (cfg : Config (system lib svc)) (l : Label (system lib svc)) : Prop :=
  ∀ row u, cfg.Did u (.insertAccount row) (.ok ()) → Redeems cfg row l →
    Hub.status? cfg.world row.id ≠ some .pending ∧ ∀ l' ∈ cfg.hist, ¬ Redeems cfg row l'

theorem Redeems.world_eq {row : NewAccount} {l : Label (system lib svc)} (h : Redeems cfg row l)
    (hs : Step (system lib svc) cfg l cfg') : cfg'.world = cfg.world := by
  obtain ⟨t, companyId, req, state, endpoint, form, response, rfl, -⟩ := h
  have hn : some cfg.world = some cfg'.world := hs.next_eq
  exact (Option.some.inj hn).symm

theorem Redeems.held {row : NewAccount} {l : Label (system lib svc)} (h : Redeems cfg row l) :
    row.pkceVerifier ≠ none := by
  obtain ⟨t, companyId, req, state, endpoint, form, response, -, -, -, -, hv, -⟩ := h
  exact hv

theorem outrun_of_singleUse (h₀ : w₀.Idle) (hr : Reach (system lib svc) (· = w₀) ok cfg)
    {l : Label (system lib svc)} (hs : Step (system lib svc) cfg l cfg') (hu : SingleUse cfg') :
    Outrun cfg l := by
  intro row u hd hx
  have hd' : cfg'.Did u (.insertAccount row) (.ok ()) := hs.did.mpr (.inr hd)
  have hx' : Redeems cfg' row l := hx.step hs
  constructor
  · intro hp
    obtain ⟨r, hrow, hpending⟩ := Hub.status?_eq_some.mp hp
    have heq := (verifier_held_iff h₀ hr hd hx.held hrow).mpr hpending
    refine hu.consumed hd' ?_ hx' ?_ heq
    · rw [hs.hist]
      exact List.mem_cons_self
    · rw [hx.world_eq hs]
      exact hrow
  · intro l' hm hx₁
    have hpair := hu.once hd'
    rw [hs.hist] at hpair
    exact List.rel_of_pairwise_cons hpair hm ⟨hx', hx₁.step hs⟩

/-- What the invariant of a run with outrun exchanges adds: a redeemed account has left pending. -/
structure Spent (w₀ : Hub) (cfg : Config (system lib svc)) : Prop where
  once : ∀ {row u}, cfg.Did u (.insertAccount row) (.ok ()) →
    cfg.hist.Pairwise fun l l' => ¬ (Redeems cfg row l ∧ Redeems cfg row l')
  left : ∀ {row u l}, cfg.Did u (.insertAccount row) (.ok ()) → l ∈ cfg.hist → Redeems cfg row l →
    Left w₀ cfg row.id

theorem Spent.singleUse (h : Spent w₀ cfg) (h₀ : w₀.Idle) (hr : Reach (system lib svc) (· = w₀) ok cfg) :
    SingleUse cfg where
  once := h.once
  consumed := by
    intro row u l r hd hm hx hrow heq
    have hp := (verifier_held_iff h₀ hr hd hx.held hrow).mp heq
    exact (h.left hd hm hx).status (Hub.status?_eq_some.mpr ⟨r, hrow, hp⟩)

theorem not_redeemed_of_insert (h₀ : w₀.Idle) (hr : Reach (system lib svc) (· = w₀) ok cfg) {u : Tid}
    {row : NewAccount} (hs : Step (system lib svc) cfg (.op u (.insertAccount row) (.ok ())) cfg')
    {l : Label (system lib svc)} (hm : l ∈ cfg.hist) : ¬ Redeems cfg row l := by
  intro hx
  have hn : Hub.next u (.insertAccount row) (.ok ()) cfg.world = some cfg'.world := hs.next_eq
  have hid : cfg.Did u .newUuid row.id := by
    obtain ⟨c, -, hmust⟩ := (script_holds lib svc).asked hr hs
    cases c with
    | authorize req => exact mem_events.mp hmust.2.1
    | _ => exact hmust.elim
  have hun : ¬ cfg.Did u .commit (.ok ()) := by
    intro hcom
    obtain ⟨c, -, hmust⟩ := (script_holds lib svc).asked hr hs
    cases c with
    | authorize req => exact (hmust.2.2 _ (mem_events.mpr hcom)).1 rfl
    | _ => exact hmust.elim
  have hminted := minted_of_reach h₀ hr
  rcases entered_of_redeems h₀ hr hm hx with h | ⟨t, ht, htc⟩
  · exact h (hminted.fresh hid)
  · rw [hminted.unique ht hid] at htc
    exact hun htc

theorem Spent.step (h₀ : w₀.Idle) (hr : Reach (system lib svc) (· = w₀) ok cfg)
    {l : Label (system lib svc)} (hok : ok cfg l) (hs : Step (system lib svc) cfg l cfg')
    (h : Spent w₀ cfg) (ho : Outrun cfg l) : Spent w₀ cfg' := by
  -- what is redeemed now was inserted before this step
  have inserted : ∀ {row u l'}, cfg'.Did u (.insertAccount row) (.ok ()) → l' ∈ l :: cfg.hist →
      Redeems cfg' row l' → cfg.Did u (.insertAccount row) (.ok ()) ∧ Redeems cfg row l' := by
    intro row u l' hd hm hx
    have hx' : Redeems cfg row l' := (redeems_step_iff hr hs (List.mem_cons.mp hm)).mp hx
    refine ⟨?_, hx'⟩
    rcases hs.did.mp hd with rfl | hd
    · exfalso
      rcases List.mem_cons.mp hm with rfl | hm
      · obtain ⟨t, companyId, req, state, endpoint, form, response, hl, -⟩ := hx
        cases hl
      · exact not_redeemed_of_insert h₀ hr hs hm hx'
    · exact hd
  constructor
  · intro row u hd
    by_cases hall : ∀ l' ∈ cfg'.hist, ¬ Redeems cfg' row l'
    · exact List.pairwise_of_forall_mem_list fun l' hl' _ _ hx => hall l' hl' hx.1
    push Not at hall
    obtain ⟨l₁, hm₁, hx₁⟩ := hall
    rw [hs.hist] at hm₁ ⊢
    have hd' := (inserted hd hm₁ hx₁).1
    refine List.pairwise_cons.mpr ⟨fun l' hm' hx => ?_, (h.once hd').imp_of_mem fun hm hm' hx hx' => ?_⟩
    · have hnow := (inserted hd List.mem_cons_self hx.1).2
      exact (ho row u hd' hnow).2 l' hm' (inserted hd (List.mem_cons_of_mem _ hm') hx.2).2
    · exact hx ⟨(inserted hd (List.mem_cons_of_mem _ hm) hx'.1).2,
        (inserted hd (List.mem_cons_of_mem _ hm') hx'.2).2⟩
  · intro row u l' hd hm hx
    rw [hs.hist] at hm
    obtain ⟨hd', hx'⟩ := inserted hd hm hx
    rcases List.mem_cons.mp hm with rfl | hm
    · refine ⟨?_, ?_⟩
      · exact entered_of_redeems h₀ (.step hr hok hs) (by rw [hs.hist]; exact List.mem_cons_self) hx
      · rw [hx'.world_eq hs]
        exact (ho row u hd' hx').1
    · exact (h.left hd' hm hx').step h₀ hr hs

theorem spent_of_outrun (h₀ : w₀.Idle) {tr : List (Taken (system lib svc))}
    (hr : Run (system lib svc) (· = w₀) ok tr cfg) (h : ∀ s ∈ tr, Outrun s.before s.label) :
    Spent w₀ cfg ∧ ∀ s ∈ tr, SingleUse s.after := by
  induction hr with
  | init _ => exact ⟨⟨fun hd => (nomatch hd), fun hd => (nomatch hd)⟩, fun s hm => (nomatch hm)⟩
  | @step tr cfg l cfg' hrun hok hs ih =>
    obtain ⟨hl, hrest⟩ := List.forall_mem_cons.mp h
    obtain ⟨hspent, hall⟩ := ih hrest
    have hspent' := hspent.step h₀ hrun.reach hok hs hl
    have huse := hspent'.singleUse h₀ (hrun.step hok hs).reach
    exact ⟨hspent', List.forall_mem_cons.mpr ⟨huse, hall⟩⟩

/-- Outrun exchanges are for authorizations that fail: no completion activates an account with a
verifier in such a run. -/
theorem not_activated_of_outrun (h₀ : w₀.Idle) {tr : List (Taken (system lib svc))}
    (hr : Run (system lib svc) (· = w₀) ok tr cfg) (h : ∀ s ∈ tr, Outrun s.before s.label) {t u : Tid}
    {row : NewAccount} (hd : cfg.Did u (.insertAccount row) (.ok ())) (hv : row.pkceVerifier ≠ none) :
    ¬ Activated cfg t row.id := by
  rintro ⟨scopes, expiresAt, now, hact⟩
  have hX := script_holds lib svc
  obtain ⟨s, hm, hl⟩ : ∃ s ∈ tr,
      s.label = .op t (.update row.id (.activate scopes expiresAt now)) (.ok 1) := by
    rw [Config.Did, hr.hist_eq] at hact
    obtain ⟨s, hm, hl⟩ := List.mem_map.mp hact
    exact ⟨s, hm, hl⟩
  obtain ⟨newer, older, rfl⟩ := List.append_of_mem hm
  obtain ⟨hold, -, hs⟩ := hr.split
  have hspent := (spent_of_outrun h₀ hold fun s hs => h s (by simp [hs])).1
  rw [hl] at hs
  obtain ⟨r, hrow, hp⟩ : ∃ r, (Hub.accounts s.before.world).lookup row.id = some r ∧
      r.status = .pending := by
    have hc := step_change hs
    generalize s.after.world = w' at hc
    cases hc with
    | @update x u r hrow hfree =>
      obtain ⟨hrow, hg⟩ := Hub.statusTarget_eq_some.mp hrow
      exact ⟨r, hrow, by simpa [StatusUpdate.guard] using hg⟩
    | quiet hq => cases hq
  -- the row was inserted before its activation
  obtain ⟨u', hd'⟩ : ∃ u', s.before.Did u' (.insertAccount row) (.ok ()) := by
    rcases holds_of_row h₀ hold.reach hrow with hinit | ⟨u', row', hd', hid, -⟩
    · exact absurd ((minted_of_reach h₀ hr.reach).fresh (newUuid_of_insert hr.reach hd)) hinit
    · refine ⟨u', ?_⟩
      have hlater : cfg.Did u' (.insertAccount row') (.ok ()) := by
        rw [Config.Did, hold.hist_eq] at hd'
        rw [Config.Did, hr.hist_eq]
        simp only [List.map_append, List.map_cons, List.mem_append, List.mem_cons]
        exact .inr (.inr hd')
      rwa [← inserted_unique h₀ hr.reach hlater hd hid]
  obtain ⟨c, hc, hmust⟩ := hX.asked hold.reach hs
  cases c with
  | complete companyId req =>
    obtain ⟨g, -, -, hg, hid, -⟩ := hmust
    obtain ⟨endpoints, clientId, identity, -, ⟨form, hx⟩, -⟩ := hg.verified
    have hx : s.before.Did t (.exchange endpoints.token form) (.ok g.response) :=
      mem_events.mp (hx.subset (by simp))
    obtain ⟨pre, hpre, state, account, adapter, v, hpres⟩ := hX.past hold.reach hc hx
    obtain rfl : g.state = state :=
      hg.token.unique (StateSigner.authentic_of_binding hpres.token)
    have heq := hpres.verifier_eq h₀ hold.reach
      (fun _ hm => hpre.subset (List.mem_cons_of_mem _ hm)) hd' hid
    obtain ⟨_, _, -, -, hform⟩ := hpres.form
    have hpresents : form.codeVerifier = row.pkceVerifier := by
      rw [hform]
      exact heq
    have hredeem : Redeems s.before row (.op t (.exchange endpoints.token form) (.ok g.response)) :=
      ⟨t, companyId, req, g.state, _, _, _, rfl, hc, hpres.token, hid.symm, hv, hpresents⟩
    exact (hspent.left hd' hx hredeem).status (Hub.status?_eq_some.mpr ⟨r, hrow, hp⟩)
  | disconnect companyId id => cases hmust.2.1
  | _ => exact hmust.elim

/-- **The use of a verifier.** In a run, every verifier is used once and is gone after its use exactly
when each of its exchanges that the provider answers with tokens is outrun: the account has left
pending since the completion read it, and no other completion has had its answer. -/
theorem single_use_iff (h₀ : w₀.Idle) {tr : List (Taken (system lib svc))}
    (hr : Run (system lib svc) (· = w₀) ok tr cfg) :
    (∀ s ∈ tr, SingleUse s.after) ↔ ∀ s ∈ tr, Outrun s.before s.label := by
  constructor
  · intro h s hm
    obtain ⟨newer, older, rfl⟩ := List.append_of_mem hm
    obtain ⟨hold, -, hs⟩ := hr.split
    exact outrun_of_singleUse h₀ hold.reach hs (h s hm)
  · exact fun h => (spent_of_outrun h₀ hr h).2

/-- The first completion of the mailbox is rejected for its identity, and a second one goes to the token
endpoint with the same verifier. -/
def mailRetry : List (Label (system mailCrates mailService)) :=
  mailFlow ++
  [.op 1 .utcNow (0 : Int),
    .op 1 (.fetchIdentity gmailUserinfo "access-1") (.ok (mailIdentity "stranger@example.com")),
    .finish 1,
    .start 2 (.complete 9 mailRequest), .op 2 .utcNow (0 : Int),
    .op 2 (.fetchAccount 1) (.ok (some (mailNewRow.toAccount.toRow 1))),
    .op 2 (.fetchVerifier 1) (.ok (some (some zeros48B64))),
    .op 2 (.exchange gmailToken { mailForm with codeVerifier := zeros48B64 }) (.ok mailResponse)]

theorem mailRetry_runs : (replay (fun cfg l => mailRules cfg l) (.init newHub) mailRetry).any
    (fun cfg => (Hub.accounts cfg.world).lookup 1 = some mailNewRow.toAccount) = true := by
  decide +kernel

theorem mailRetry_reach : ∃ cfg : Config (system mailCrates mailService),
    Reach (system mailCrates mailService) (· = newHub) (fun cfg l => mailRules cfg l) cfg ∧
      cfg.hist = mailRetry.reverse ∧
      (Hub.accounts cfg.world).lookup 1 = some mailNewRow.toAccount := by
  obtain ⟨cfg, hr, hh, hend⟩ : ∃ cfg, Reach (system mailCrates mailService) (· = newHub)
      (fun cfg l => mailRules cfg l) cfg ∧ cfg.hist = mailRetry.reverse ∧
        decide ((Hub.accounts cfg.world).lookup 1 = some mailNewRow.toAccount) = true := by
    refine Reach.exists_of_replay ?_ mailRetry_runs
    rfl
  exact ⟨cfg, hr, hh, of_decide_eq_true hend⟩

theorem single_use_iff_mailbox : ∃ (cfg : Config (system mailCrates mailService))
    (tr : List (Taken (system mailCrates mailService))), tr.map (·.label) = mailRetry.reverse ∧
      Run (system mailCrates mailService) (· = newHub) (fun cfg l => mailRules cfg l) tr cfg ∧
      ((∀ s ∈ tr, SingleUse s.after) ↔ ∀ s ∈ tr, Outrun s.before s.label) := by
  obtain ⟨cfg, hr, hh, -⟩ := mailRetry_reach
  obtain ⟨tr, htr⟩ := hr.run
  exact ⟨cfg, tr, htr.hist_eq.symm.trans hh, htr, single_use_iff newHub_idle htr⟩

/-! A verifier is presented twice with success, and the account still holds it. -/

theorem verifier_redeemed_twice : ∃ cfg : Config (system mailCrates mailService),
    Reach (system mailCrates mailService) (· = newHub) (fun cfg l => mailRules cfg l) cfg ∧
      cfg.Did 1 (.exchange gmailToken { mailForm with codeVerifier := zeros48B64 }) (.ok mailResponse) ∧
      cfg.Did 2 (.exchange gmailToken { mailForm with codeVerifier := zeros48B64 }) (.ok mailResponse) ∧
      ¬ SingleUse cfg := by
  obtain ⟨cfg, hr, hh, hend⟩ := mailRetry_reach
  have hd : cfg.Did 0 (.insertAccount mailNewRow) (.ok ()) := by
    simp [Config.Did, hh, mailRetry, mailFlow]
  have hx : cfg.Did 1 (.exchange gmailToken { mailForm with codeVerifier := zeros48B64 })
      (.ok mailResponse) := by
    simp [Config.Did, hh, mailRetry, mailFlow]
  refine ⟨cfg, hr, hx, by simp [Config.Did, hh, mailRetry], fun hu => ?_⟩
  have hc : cfg.call? 1 = some (.complete 9 mailRequest) :=
    hr.call_of_start (by simp [hh, mailRetry, mailFlow])
  have hstate : mailService.signer.binding mailCrates mailRequest.state = .ok mailState := by
    decide +kernel
  refine hu.consumed hd hx ?_ hend rfl
  exact ⟨1, 9, mailRequest, mailState, gmailToken, _, mailResponse, rfl, hc, hstate, rfl, by decide, rfl⟩

end BackboneIntegrations.OAuth
