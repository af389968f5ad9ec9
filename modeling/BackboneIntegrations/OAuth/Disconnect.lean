import BackboneIntegrations.OAuth.Activation
import BackboneIntegrations.OAuth.SingleFlight

/-!
# What a disconnect ends

`disconnect` withdraws the credential and then revokes the row. From its withdrawal on, only an issue
could bring a credential back.
-/

open Interleave

namespace BackboneIntegrations.OAuth

open IntegrationsOauthService

variable {lib : Crates} {svc : IntegrationsOauthService} {w₀ : Hub}
  {ok : Config (system lib svc) → Label (system lib svc) → Prop} {cfg cfg' : Config (system lib svc)}
  {l : Label (system lib svc)} {t : Tid} {co id : Uuid} {scope : CredentialScope}

/-! ## The condition -/

/-- The scope of an issue that went through. -/
def issued? : Label (system lib svc) → Option CredentialScope
  | .op _ (.issue scope ..) (.ok _) => some scope
  | _ => none

/-- The disconnect on thread `t` has withdrawn the credential, or the store never had one. -/
def HasWithdrawn (cfg : Config (system lib svc)) (t : Tid) (scope : CredentialScope) : Prop :=
  ∃ ans, Withdrawn ans ∧ cfg.Did t (.revoke scope) ans

/-- An account of the scope is revoked, or a disconnect of it is past the store. -/
def Closed (co : Uuid) (cfg : Config (system lib svc)) (scope : CredentialScope) : Prop :=
  ∃ id r, cfg.world.accounts.lookup id = some r ∧ r.scope co = scope ∧
    (r.status = .revoked ∨ ∃ t, cfg.call? t = some (.disconnect co id) ∧ HasWithdrawn cfg t scope)

/-- The store keeps to its semantics, and every disconnect is under the company. -/
def OneCompany (co : Uuid) (cfg : Config (system lib svc)) : Label (system lib svc) → Prop
  | .start _ c => ∀ company id, c = .disconnect company id → company = co
  | .op _ op ans => cfg.world.StorePort op ans
  | _ => True

/-- No issue goes through for an account that is disconnected or is being disconnected. -/
def IssuesOpen (co : Uuid) (cfg : Config (system lib svc)) (l : Label (system lib svc)) : Prop :=
  ∀ scope ∈ issued? l, ¬ Closed co cfg scope

/-! ## The row that a disconnect has read -/

theorem key_kept (h₀ : w₀.Idle) (hr : Reach (system lib svc) (· = w₀) ok cfg)
    (hs : Step (system lib svc) cfg l cfg') {r r' : Account} (hb : cfg.world.accounts.lookup id = some r)
    (ha : cfg'.world.accounts.lookup id = some r') : r'.key = r.key := by
  by_cases hl : ∃ t op ans, l = .op t op ans
  · obtain ⟨t, op, ans, rfl⟩ := hl
    have hc := step_change hs
    generalize hw' : cfg'.world = w' at hc ha
    have hsame : w'.accounts.lookup id = cfg.world.accounts.lookup id → r'.key = r.key := by
      intro heq
      rw [ha, hb] at heq
      cases heq
      rfl
    cases hc with
    | commit =>
      -- An insertion that is still open has a new id.
      have hne : ∀ row, .insert row ∈ cfg.world.txs.writes t → row.id ≠ id := by
        rintro row hm rfl
        have habsent := (minted_of_reach h₀ hr).absent hm
        rw [Hub.status?_eq_none, hb] at habsent
        cases habsent
      have hw := Hub.foldl_rewritten hb hne
      rw [← Hub.commit_accounts, ha] at hw
      cases hw <;> assumption
    | @update x u r₀ hrow hfree =>
      obtain ⟨hrow, -⟩ := Hub.statusTarget_eq_some.mp hrow
      by_cases hid : id = x
      · subst hid
        rw [hb] at hrow
        cases hrow
        simp only [Hub.setStatus, AList.lookup_insert, Option.some.injEq] at ha
        rw [← ha, u.set_key]
      · exact hsame (AList.lookup_insert_ne hid)
    | _ => exact hsame rfl
  · push Not at hl
    rw [(step_beside hs hl).accounts, hb] at ha
    cases ha
    rfl

theorem Entered.row_before {r' : Account} (he : Entered w₀ cfg id) (h₀ : w₀.Idle)
    (hr : Reach (system lib svc) (· = w₀) ok cfg) (hs : Step (system lib svc) cfg l cfg')
    (ha : cfg'.world.accounts.lookup id = some r') :
    ∃ r, cfg.world.accounts.lookup id = some r ∧ r'.key = r.key := by
  have hne : cfg.world.accounts.lookup id ≠ none := by
    intro hnone
    have hf := follows_step h₀ hr hs he
    rw [Hub.status?_eq_none.mpr hnone] at hf
    rcases hf with hf | ⟨x, hx, -⟩
    · rw [Hub.status?_eq_none, ha] at hf
      cases hf
    · cases hx
  obtain ⟨r, hb⟩ := Option.ne_none_iff_exists'.mp hne
  exact ⟨r, hb, key_kept h₀ hr hs hb ha⟩

theorem fetched (h₀ : w₀.Idle) (hr : Reach (system lib svc) (· = w₀) ok cfg) {account : AccountRow}
    (hd : cfg.Did t (.fetchAccount id) (.ok (some account))) :
    Entered w₀ cfg id ∧ ∀ r, cfg.world.accounts.lookup id = some r →
      r.key = (account.provider, account.accountRef) := by
  induction hr with
  | init _ => cases hd
  | @step cfg l cfg' hreach _ hs ih =>
    rcases hs.did.mp hd with rfl | hd
    · have hstatus := fetched_status hs
      have he := entered_of_status h₀ hreach (by rw [hstatus]; nofun)
      refine ⟨he.step hs, fun r hrow => ?_⟩
      obtain ⟨r₀, hb, hk⟩ := he.row_before h₀ hreach hs hrow
      have hn : Hub.next t (.fetchAccount id) (.ok (some account)) cfg.world = some cfg'.world := hs.next_eq
      simp only [Hub.next, hb, Option.ite_none_right_eq_some, Option.map_some, Option.some.injEq] at hn
      rw [hk, hn.1]
      rfl
    · obtain ⟨he, hkey⟩ := ih hd
      refine ⟨he.step hs, fun r hrow => ?_⟩
      obtain ⟨r₀, hb, hk⟩ := he.row_before h₀ hreach hs hrow
      rw [hk, hkey r₀ hb]

theorem scope_of_key {r : Account} {account : AccountRow}
    (h : r.key = (account.provider, account.accountRef)) : r.scope co = account.scope co := by
  obtain ⟨hp, ha⟩ := Prod.mk.inj h
  rw [Account.scope, AccountRow.scope, hp, ha]

theorem HasWithdrawn.read (h : HasWithdrawn cfg t scope) (hr : Reach (system lib svc) (· = w₀) ok cfg)
    {company : Uuid} (hc : cfg.call? t = some (.disconnect company id)) :
    ∃ account : AccountRow, scope = account.scope company ∧
      cfg.Did t (.fetchAccount id) (.ok (some account)) := by
  obtain ⟨ans, -, hd⟩ := h
  obtain ⟨pre, hpre, account, hscope, rfl⟩ := (script_holds lib svc).past hr hc hd
  exact ⟨account, hscope, mem_events.mp (hpre.subset (by simp))⟩

/-! ## How an account closes -/

theorem revoked_by (h₀ : w₀.Idle) (hr : Reach (system lib svc) (· = w₀) ok cfg)
    (hs : Step (system lib svc) cfg l cfg') (hb : Hub.status? cfg.world id ≠ some .revoked)
    (ha : Hub.status? cfg'.world id = some .revoked) :
    ∃ t n, l = .op t (.update id .revoke) (.ok n) := by
  by_cases hl : ∃ t op ans, l = .op t op ans
  · obtain ⟨t, op, ans, rfl⟩ := hl
    have hc := step_change hs
    generalize hw' : cfg'.world = w' at hc ha
    cases hc with
    | commit =>
      rcases Hub.commit_status id (fun row hm => (minted_of_reach h₀ hr).absent hm)
          (fun _ _ _ hm => (locked_of_reach h₀ hr).active hm) with
        hkept | ⟨-, he⟩ | ⟨-, hn⟩ | ⟨row, -, -, -, hp⟩
      · exact absurd (hkept.symm.trans ha) hb
      · cases he.symm.trans ha
      · cases hn.symm.trans ha
      · cases hp.symm.trans ha
    | @update x u r hrow hfree =>
      by_cases hid : id = x
      · subst hid
        cases u with
        | activate scopes expiresAt now => simp [Hub.status?, Hub.setStatus, StatusUpdate.set] at ha
        | revoke => exact ⟨t, 1, rfl⟩
      · rw [Hub.status?, Hub.setStatus, AList.lookup_insert_ne hid] at ha
        exact absurd ha hb
    | _ => exact absurd ha hb
  · push Not at hl
    rw [(step_beside hs hl).status?] at ha
    exact absurd ha hb

theorem update_withdrawn (hr : Reach (system lib svc) (· = w₀) ok cfg) {n : Nat}
    (hs : Step (system lib svc) cfg (.op t (.update id .revoke) (.ok n)) cfg') :
    ∃ company, ∃ account : AccountRow, cfg.call? t = some (.disconnect company id) ∧
      cfg.Did t (.fetchAccount id) (.ok (some account)) ∧
      HasWithdrawn cfg t (account.scope company) := by
  obtain ⟨c, hc, hm⟩ := (script_holds lib svc).asked hr hs
  cases c with
  | complete company req =>
    obtain ⟨g, ev, h', -, -, hu, -⟩ := hm
    cases hu
  | disconnect company account =>
    obtain ⟨rfl, -, account, ans, hw, hev⟩ := hm
    refine ⟨company, account, hc, mem_events.mp ?_, ans, hw, mem_events.mp ?_⟩
    · rw [hev, withdrew]
      simp
    · rw [hev, withdrew]
      simp
  | _ => exact hm.elim

/-- An account closes only when a disconnect withdraws its credential. -/
theorem closed_step (h₀ : w₀.Idle) (hr : Reach (system lib svc) (· = w₀) ok cfg)
    (hs : Step (system lib svc) cfg l cfg')
    (hco : ∀ t company id, cfg.call? t = some (.disconnect company id) → company = co)
    (h : Closed co cfg' scope) :
    Closed co cfg scope ∨ ∃ t ans, Withdrawn ans ∧ l = .op t (.revoke scope) ans := by
  obtain ⟨id, r', hrow', hscope, hend⟩ := h
  rcases hend with hrevoked | ⟨t, hcall, ans, hw, hd⟩
  · by_cases hb : Hub.status? cfg.world id = some .revoked
    · obtain ⟨r, hrow, hrev⟩ := Hub.status?_eq_some.mp hb
      have hk := key_kept h₀ hr hs hrow hrow'
      exact .inl ⟨id, r, hrow, by rw [← hscope, scope_eq_iff, hk], .inl hrev⟩
    · obtain ⟨t, n, rfl⟩ := revoked_by h₀ hr hs hb (Hub.status?_eq_some.mpr ⟨r', hrow', hrevoked⟩)
      obtain ⟨company, account, hcall, hd, hw⟩ := update_withdrawn hr hs
      obtain rfl := hco t company id hcall
      obtain ⟨he, hkey⟩ := fetched h₀ hr hd
      obtain ⟨r, hrow, hk⟩ := he.row_before h₀ hr hs hrow'
      have haccount : r'.scope company = account.scope company := scope_of_key (hk.trans (hkey r hrow))
      refine .inl ⟨id, r, hrow, by rw [← hscope, scope_eq_iff, hk], .inr ⟨t, hcall, ?_⟩⟩
      rwa [← hscope, haccount]
  · rcases hs.did.mp hd with rfl | hd
    · exact .inr ⟨t, ans, hw, rfl⟩
    rcases hs.call_cases hcall with hcall | rfl
    · have hwithdrawn : HasWithdrawn cfg t scope := ⟨ans, hw, hd⟩
      obtain ⟨account, -, hread⟩ := hwithdrawn.read hr hcall
      obtain ⟨r, hrow, hk⟩ := (fetched h₀ hr hread).1.row_before h₀ hr hs hrow'
      exact .inl ⟨id, r, hrow, by rw [← hscope, scope_eq_iff, hk], .inr ⟨t, hcall, hwithdrawn⟩⟩
    · exact absurd hd ((script_holds lib svc).not_did_of_start hr hs)

/-! ## No credential comes back -/

/-- An account that is closed has no credential. -/
structure Emptied (co : Uuid) (cfg : Config (system lib svc)) : Prop where
  company : ∀ t company id, cfg.call? t = some (.disconnect company id) → company = co
  empty : ∀ scope, Closed co cfg scope → cfg.world.current scope = none

theorem Hub.current_withdraw (w : Hub) (scope : CredentialScope) :
    (w.withdraw scope).current scope = none := by
  rw [current, ← List.head?_filter]
  exact congrArg List.head? (Credentials.filter_withdraw w.credentials scope)

theorem empty_of_withdrawn {ans : Ans (.revoke scope)} {w' : Hub} (hw : Withdrawn ans)
    (hstore : cfg.world.StorePort (.revoke scope) ans)
    (hn : Hub.next t (.revoke scope) ans cfg.world = some w') : w'.current scope = none := by
  rcases ans with f | ⟨⟩
  · cases hn
    have hcode : f.code = OAuthCredentialFailure.codeNotFound := hw
    simp only [Hub.StorePort, hcode, bne_self_eq_false, Bool.false_or, List.all_eq_true,
      bne_iff_ne] at hstore
    rw [Hub.current, List.find?_eq_none]
    intro c hc
    simp only [decide_eq_true_eq]
    exact fun hcur => hstore c hc hcur.1
  · cases hn
    exact Hub.current_withdraw _ _

theorem emptied_op {op : Op} {ans : Ans op} (h : cfg.world.current scope = none)
    (hstore : cfg.world.StorePort op ans) (hs : Step (system lib svc) cfg (.op t op ans) cfg')
    (hissue : ∀ s ∈ issued? (.op t op ans : Label (system lib svc)), s ≠ scope) :
    cfg'.world.current scope = none := by
  have hc := step_change hs
  generalize hw' : cfg'.world = w' at hc
  cases hc with
  | @issue s purpose bundle e cid => rw [Hub.current_store_ne (hissue s rfl), h]
  | @rotate s bundle e cid =>
    have hne : s ≠ scope := by
      rintro rfl
      simp only [Hub.StorePort, h, Option.isSome_none, Bool.false_eq_true] at hstore
    rw [Hub.current_store_ne hne, Hub.current_withdraw_ne hne.symm, h]
  | @revoke s =>
    by_cases hscope : scope = s
    · rw [hscope, Hub.current_withdraw]
    · rw [Hub.current_withdraw_ne hscope, h]
  | commit =>
    rw [Hub.current, Hub.commit_credentials]
    exact h
  | _ => exact h

theorem Emptied.step (h : Emptied co cfg) (h₀ : w₀.Idle) (hr : Reach (system lib svc) (· = w₀) ok cfg)
    (hok : OneCompany co cfg l ∧ IssuesOpen co cfg l) (hs : Step (system lib svc) cfg l cfg') :
    Emptied co cfg' where
  company t company id hc := by
    rcases hs.call_cases hc with hc | rfl
    · exact h.company t company id hc
    · exact hok.1 company id rfl
  empty scope hclosed := by
    obtain ⟨hallow, hopen⟩ := hok
    rcases closed_step h₀ hr hs h.company hclosed with hclosed | ⟨t, ans, hw, rfl⟩
    · have hempty := h.empty scope hclosed
      by_cases hl : ∃ t op ans, l = .op t op ans
      · obtain ⟨t, op, ans, rfl⟩ := hl
        refine emptied_op hempty hallow hs ?_
        rintro s hs rfl
        exact hopen s hs hclosed
      · push Not at hl
        rw [Hub.current, (step_beside hs hl).credentials]
        exact hempty
    · exact empty_of_withdrawn hw hallow hs.next_eq

/-! ## After the disconnect -/

/-- The row was there, and it has the status or is gone. -/
structure Ended (w₀ : Hub) (cfg : Config (system lib svc)) (id : Uuid) (a : IntegrationAccountStatus) :
    Prop where
  entered : Entered w₀ cfg id
  status : ∀ b, Hub.status? cfg.world id = some b → b = a

variable {a : IntegrationAccountStatus}

theorem Ended.step (h : Ended w₀ cfg id a) (ha : a.Terminal) (h₀ : w₀.Idle)
    (hr : Reach (system lib svc) (· = w₀) ok cfg) (hs : Step (system lib svc) cfg l cfg') :
    Ended w₀ cfg' id a where
  entered := h.entered.step hs
  status b hb := by
    have hf := follows_step h₀ hr hs h.entered
    rw [hb] at hf
    cases hbefore : Hub.status? cfg.world id with
    | none =>
      rw [hbefore] at hf
      rcases hf with hf | ⟨x, hx, -⟩
      · cases hf
      · cases hx
    | some c =>
      obtain rfl := h.status c hbefore
      rw [hbefore] at hf
      rcases hf.of_terminal ha with hnone | hsame
      · cases hnone
      · exact Option.some.inj hsame

theorem ended_of_revoked (h₀ : w₀.Idle) (hr : Reach (system lib svc) (· = w₀) ok cfg) {account : AccountRow}
    (hd : cfg.Did t (.fetchAccount id) (.ok (some account))) (hrev : account.status = .revoked) :
    Ended w₀ cfg id .revoked := by
  induction hr with
  | init _ => cases hd
  | @step cfg l cfg' hreach _ hs ih =>
    rcases hs.did.mp hd with rfl | hd
    · have hstatus := fetched_status hs
      rw [hrev] at hstatus
      have hended : Ended w₀ cfg id .revoked :=
        ⟨entered_of_status h₀ hreach (by rw [hstatus]; nofun),
          fun b hb => Option.some.inj (hb.symm.trans hstatus)⟩
      exact hended.step (.inr rfl) h₀ hreach hs
    · exact (ih hd).step (.inr rfl) h₀ hreach hs

theorem terminal_of_update {n : Nat} {w w' : Hub} (hn : Hub.next t (.update id .revoke) (.ok n) w = some w')
    {b : IntegrationAccountStatus} (hb : w'.status? id = some b) : b.Terminal := by
  have hone := Hub.update_one_iff hn
  have hc := Hub.next_change hn
  cases hc with
  | update hrow hfree =>
    simp only [Hub.status?, Hub.setStatus, AList.lookup_insert, Option.map_some, Option.some.injEq] at hb
    exact .inr hb.symm
  | quiet hq =>
    have hzero : n = 0 := hq
    cases b with
    | expired => exact .inl rfl
    | revoked => exact .inr rfl
    | pending | active =>
      have : n = 1 := hone.mpr ⟨_, hb, rfl⟩
      omega

theorem ended_of_update (h₀ : w₀.Idle) (hr : Reach (system lib svc) (· = w₀) ok cfg) {n : Nat}
    (hd : cfg.Did t (.update id .revoke) (.ok n)) : ∃ a, a.Terminal ∧ Ended w₀ cfg id a := by
  induction hr with
  | init _ => cases hd
  | @step cfg l cfg' hreach _ hs ih =>
    rcases hs.did.mp hd with rfl | hd
    · obtain ⟨company, account, -, hread, -⟩ := update_withdrawn hreach hs
      have he := (fetched h₀ hreach hread).1.step hs
      cases hafter : Hub.status? cfg'.world id with
      | none => exact ⟨.revoked, .inr rfl, he, fun b hb => by rw [hafter] at hb; cases hb⟩
      | some a =>
        refine ⟨a, terminal_of_update (t := t) hs.next_eq hafter, he, fun b hb => ?_⟩
        rw [hafter] at hb
        exact (Option.some.inj hb).symm
    · obtain ⟨a, ha, hended⟩ := ih hd
      exact ⟨a, ha, hended.step ha h₀ hreach hs⟩

theorem deleted_by (h₀ : w₀.Idle) (hr : Reach (system lib svc) (· = w₀) ok cfg)
    (hs : Step (system lib svc) cfg l cfg') (hb : Hub.status? cfg.world id ≠ none)
    (ha : Hub.status? cfg'.world id = none) :
    ∃ u req, cfg.call? u = some (.authorize req) ∧ cfg.Did u (.deleteRow id) (.ok 1) := by
  by_cases hl : ∃ t op ans, l = .op t op ans
  · obtain ⟨t, op, ans, rfl⟩ := hl
    have hc := step_change hs
    generalize hw' : cfg'.world = w' at hc ha
    cases hc with
    | commit =>
      rcases Hub.commit_status id (fun row hm => (minted_of_reach h₀ hr).absent hm)
          (fun _ _ _ hm => (locked_of_reach h₀ hr).active hm) with
        hkept | ⟨-, he⟩ | ⟨hm, -⟩ | ⟨row, -, -, hn, -⟩
      · exact absurd (hkept.symm.trans ha) hb
      · cases he.symm.trans ha
      · obtain ⟨req, hcall⟩ := delete_asked hr h₀ hm
        exact ⟨t, req, hcall, asked_of_writes hr h₀ hm⟩
      · exact absurd hn hb
    | @update x u r hrow hfree =>
      by_cases hid : id = x
      · subst hid
        simp [Hub.status?, Hub.setStatus] at ha
      · rw [Hub.status?, Hub.setStatus, AList.lookup_insert_ne hid] at ha
        exact absurd ha hb
    | _ => exact absurd ha hb
  · push Not at hl
    rw [(step_beside hs hl).status?] at ha
    exact absurd ha hb

theorem deleted_of_fetched (h₀ : w₀.Idle) (hr : Reach (system lib svc) (· = w₀) ok cfg)
    {account : AccountRow} (hd : cfg.Did t (.fetchAccount id) (.ok (some account)))
    (hnone : Hub.status? cfg.world id = none) :
    ∃ u req, cfg.call? u = some (.authorize req) ∧ cfg.Did u (.deleteRow id) (.ok 1) := by
  induction hr with
  | init _ => cases hd
  | @step cfg l cfg' hreach _ hs ih =>
    have hlater : (∃ u req, cfg.call? u = some (.authorize req) ∧ cfg.Did u (.deleteRow id) (.ok 1)) →
        ∃ u req, cfg'.call? u = some (.authorize req) ∧ cfg'.Did u (.deleteRow id) (.ok 1) := by
      rintro ⟨u, req, hcall, hdel⟩
      exact ⟨u, req, hs.keeps_call hcall, hs.did.mpr (.inr hdel)⟩
    apply hlater
    by_cases hb : Hub.status? cfg.world id = none
    · rcases hs.did.mp hd with rfl | hd
      · rw [fetched_status hs] at hb
        cases hb
      · exact ih hd hb
    · exact deleted_by h₀ hreach hs hb hnone

/-- The account is terminal, and the store has no credential for it. -/
def Gone (co : Uuid) (w : Hub) (id : Uuid) : Prop :=
  ∃ r, w.accounts.lookup id = some r ∧ r.status.Terminal ∧ w.current (r.scope co) = none

/-- **Disconnect is final.** However the calls of one company interleave, when no issue goes through for
an account that is disconnected or is being disconnected, an account stays terminal and without a
credential once its disconnect has returned, until an `authorize` deletes its row. -/
theorem disconnect_final (h₀ : w₀.Idle)
    (hclean : ∀ id r, w₀.accounts.lookup id = some r → r.status = .revoked → w₀.current (r.scope co) = none)
    (hr : Reach (system lib svc) (· = w₀) (fun cfg l => OneCompany co cfg l ∧ IssuesOpen co cfg l) cfg)
    (hd : cfg.threads t = .done (.disconnect co id) (.ok ())) :
    Gone co cfg.world id ∨ Hub.status? cfg.world id = none ∧
      ∃ u req, cfg.call? u = some (.authorize req) ∧ cfg.Did u (.deleteRow id) (.ok 1) := by
  have hempty : Emptied co cfg := by
    clear hd
    induction hr with
    | @init w h =>
      refine ⟨nofun, ?_⟩
      rintro scope ⟨id, r, hrow, rfl, hrev | ⟨t, hcall, -⟩⟩
      · cases h
        exact hclean id r hrow hrev
      · cases hcall
    | step hr hok hs ih => exact ih.step h₀ hr hok hs
  have hcall : cfg.call? t = some (.disconnect co id) := by rw [Config.call?, hd]; rfl
  have hleave : disconnectLeave co id (cfg.events t) (.ok ()) := (script_holds lib svc).leave hr hd
  have hread : ∃ account, cfg.Did t (.fetchAccount id) (.ok (some account)) ∧
      (account.status = .revoked ∨ HasWithdrawn cfg t (account.scope co) ∧
        ∃ n, cfg.Did t (.update id .revoke) (.ok n)) := by
    -- `Ok` comes from a row that was read as revoked, or from behind the withdrawal and the update.
    rcases hleave with ⟨account, hrev, hev⟩ | ⟨account, ans, n, hw, hev⟩
    · exact ⟨account, mem_events.mp (by simp [hev]), .inl hrev⟩
    · refine ⟨account, mem_events.mp (by simp [hev, withdrew]), .inr ⟨⟨ans, hw, ?_⟩, n, ?_⟩⟩
      · exact mem_events.mp (by simp [hev, withdrew])
      · exact mem_events.mp (by simp [hev])
  obtain ⟨account, hread, hend⟩ := hread
  cases hrow : cfg.world.accounts.lookup id with
  | none =>
    have hnone : Hub.status? cfg.world id = none := Hub.status?_eq_none.mpr hrow
    exact .inr ⟨hnone, deleted_of_fetched h₀ hr hread hnone⟩
  | some r =>
    have hstatus : Hub.status? cfg.world id = some r.status := Hub.status?_eq_some.mpr ⟨r, hrow, rfl⟩
    refine .inl ⟨r, hrow, ?_⟩
    rcases hend with hrev | ⟨hwithdrawn, n, hupdate⟩
    · have hrevoked : r.status = .revoked := (ended_of_revoked h₀ hr hread hrev).status _ hstatus
      exact ⟨.inr hrevoked, hempty.empty _ ⟨id, r, hrow, rfl, .inl hrevoked⟩⟩
    · obtain ⟨a, ha, hended⟩ := ended_of_update h₀ hr hupdate
      have hscope : r.scope co = account.scope co := scope_of_key ((fetched h₀ hr hread).2 r hrow)
      refine ⟨hended.status _ hstatus ▸ ha, ?_⟩
      exact hempty.empty _ ⟨id, r, hrow, rfl, .inr ⟨t, hcall, hscope ▸ hwithdrawn⟩⟩

/-! ## Two disconnects of one account -/

/-- A check that the rules of the theorem hold, for a run without an issue. -/
def calm (cfg : Config (system mailCrates mailService)) : Label (system mailCrates mailService) → Bool
  | .start _ (.disconnect company _) => company = 9
  | .op t op ans => Hub.StorePort cfg.world op ans &&
    (issued? (.op t op ans : Label (system mailCrates mailService))).isNone
  | _ => true

theorem rules_of_calm {cfg : Config (system mailCrates mailService)}
    {l : Label (system mailCrates mailService)} (h : calm cfg l = true) :
    OneCompany 9 cfg l ∧ IssuesOpen 9 cfg l := by
  cases l with
  | start t c =>
    refine ⟨?_, nofun⟩
    rintro company id rfl
    exact of_decide_eq_true h
  | op t op ans =>
    simp only [calm, Bool.and_eq_true, Option.isNone_iff_eq_none] at h
    refine ⟨h.1, fun scope hs => ?_⟩
    rw [h.2] at hs
    cases hs
  | finish | crash | env => exact ⟨trivial, nofun⟩

/-- The store withdraws the credential while a refresh is at the provider. -/
def disconnectRun : List (Label (system mailCrates mailService)) :=
  [.start 0 (.refreshDue 9), .op 0 .begin (.ok ()), .op 0 (.claimDue 600 []) (.ok (some dueAccount)),
    .op 0 (.readToken mailScope) (.ok mailBundle), .op 0 .utcNow (3300000000 : Int),
    .start 1 (.disconnect 9 1), .op 1 (.fetchAccount 1)
      (.ok (some ⟨1, "gmail", "user@example.com", .active, "", some 3600000000, none⟩)),
    .op 1 (.revoke mailScope) (.ok ()),
    .op 0 (.exchange gmailToken mailRefreshForm) (.ok mailResponse),
    .op 0 .utcNow (3300000000 : Int), .op 0 (.rotate mailScope mailRotated 6900000000)
      (.error ⟨OAuthCredentialFailure.codeNotActive, ""⟩), .finish 0,
    .op 1 (.update 1 .revoke) (.ok (1 : Nat)), .finish 1]

def disconnected (cfg : Config (system mailCrates mailService)) : Bool :=
  match cfg.threads 1 with
  | .done (.disconnect ..) (.ok _) => (Hub.status? cfg.world 1).isSome
  | _ => false

theorem disconnectRun_runs : (replay (fun cfg l => calm cfg l) (.init flightHub) disconnectRun).any
    disconnected = true := by
  decide +kernel

theorem flightHub_idle : flightHub.Idle where
  txs := rfl
  used {id} hid := by
    obtain ⟨r, hr⟩ := Option.ne_none_iff_exists'.mp (mt Hub.status?_eq_none.mpr hid)
    obtain ⟨rfl, -⟩ := flightHub_row hr
    exact List.mem_cons_self

theorem disconnect_final_mailbox : ∃ cfg : Config (system mailCrates mailService),
    cfg.threads 1 = .done (.disconnect 9 1) (.ok ()) ∧ Gone 9 cfg.world 1 := by
  obtain ⟨cfg, hcfg, hend⟩ := (Option.any_eq_true ..).mp disconnectRun_runs
  have hcalm : Reach (system mailCrates mailService) (· = flightHub) (fun cfg l => calm cfg l) cfg :=
    .replay (.init rfl) hcfg
  have hr := hcalm.mono fun _ _ => rules_of_calm
  have hcall : cfg.call? 1 = some (.disconnect 9 1) :=
    hr.call_of_start (by simp [replay_hist hcfg, disconnectRun])
  simp only [disconnected] at hend
  split at hend
  · rename_i heq
    rw [Config.call?, heq] at hcall
    cases hcall
    refine ⟨cfg, heq, (disconnect_final flightHub_idle (fun id r hrow hrev => ?_) hr heq).resolve_right ?_⟩
    · obtain ⟨-, rfl⟩ := flightHub_row hrow
      cases hrev
    · rintro ⟨hnone, -⟩
      rw [hnone] at hend
      cases hend
  · cases hend

/-! A completion that has passed its checks issues after the disconnect, and the store keeps its
credential. -/

theorem credential_after_disconnect : ∃ cfg : Config (system mailCrates mailService),
    Reach (system mailCrates mailService) (· = mailHub) (fun cfg l => mailRules cfg l) cfg ∧
      cfg.hist = mailRace.reverse ∧ cfg.threads 1 = .done (.disconnect 9 1) (.ok ()) ∧
      ¬ Gone 9 cfg.world 1 := by
  obtain ⟨cfg, e, hr, hh, -, hd, hs, hcur⟩ := mailRace_reach
  refine ⟨cfg, hr, hh, hd, ?_⟩
  rintro ⟨r, hrow, -, hnone⟩
  have hread : cfg.Did 1 (.fetchAccount 1) (.ok (some mailRow)) := by simp [Config.Did, hh, mailRace]
  have hscope : r.scope 9 = mailRow.scope 9 := scope_of_key ((fetched mailHub_idle hr hread).2 r hrow)
  rw [hscope] at hnone
  have hmail : Hub.current cfg.world mailScope = none := hnone
  rw [hmail] at hcur
  cases hcur

end BackboneIntegrations.OAuth
