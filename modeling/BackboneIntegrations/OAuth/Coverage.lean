import BackboneIntegrations.OAuth.Sweep

/-!
# What a sweep covers

The loops of the two sweeps as agendas, and what one call does to the whole table.
-/

open Interleave

namespace BackboneIntegrations.OAuth

/-! ## Runs of the loops -/

/-- The sweep returned. It counted what it attempted, and left the table as `Q` says. -/
def Reported {ε β : Type} (total : β → ℕ) (Q : (Uuid → Option Account) → List Uuid → Prop) (res : Except ε β)
    (s : Hub × List Uuid) : Prop :=
  ∃ b, res = .ok b ∧ total b = s.2.length ∧ Q s.1.rows s.2

section

variable {ans : Uuid → Answers} {w : Hub} {t : Tid} {id : Uuid} {r : Account} {log : List Uuid} {left : ℕ}
  {Q : (Uuid → Option Account) → List Uuid → Prop} {A : Agenda Uuid Account Time}

theorem Settles.round_iff {ε β : Type} {p : Flow ε β} {f : β → Flow ε β} {total : β → ℕ}
    (hr : w.rows id = some r)
    (hp : Settles ans t p total log.length id (w.claim t id) (log ++ [id]) (A.step id r))
    (hf : ∀ b w', total b = (log ++ [id]).length → w'.Still t → w'.clock = w.clock →
      (Meets (sweeping ans t) (f b).run (w', log ++ [id]) (Reported total Q) ↔
        A.Every Q left w'.rows (log ++ [id]))) :
    Meets (sweeping ans t) (p >>= f).run (w.claim t id, log ++ [id]) (Reported total Q) ↔
      ∃ r', A.handle w.rows id = some r' ∧
        A.Every Q left (Function.update w.rows id (some r')) (log ++ [id]) := by
  have hhandle : A.handle w.rows id = A.step id r := by
    rw [Agenda.handle, hr, Option.bind_some]
  rw [hhandle, meets_run_bind]
  cases hstep : A.step id r with
  | none =>
    rw [hstep] at hp
    -- The row breaks the loop off.
    refine iff_of_false (hp _ ?_) (by rintro ⟨_, ⟨⟩, -⟩)
    rintro e s ⟨b, hb, -⟩
    cases hb
  | some r' =>
    rw [hstep] at hp
    obtain ⟨b, w', htotal, ⟨hstill, hclock, hrows⟩, hrun⟩ := hp
    have hlen : total b = (log ++ [id]).length := by
      rw [htotal, List.length_append, List.length_singleton]
    rw [hrun]
    dsimp only
    rw [hf b w' hlen hstill hclock, hrows]
    constructor
    · intro h
      exact ⟨r', rfl, h⟩
    · rintro ⟨_, ⟨⟩, h⟩
      exact h

end

namespace IntegrationsOauthService

def agenda (lib : Crates) (svc : IntegrationsOauthService) (now : Time) (ans : Uuid → Answers) :
    Agenda Uuid Account Time where
  key := Account.dueAt svc.refreshWindow now
  step id r := (svc.ending lib now r.provider (ans id)).row now r
  once := false

variable {lib : Crates} {svc : IntegrationsOauthService} {companyId : Uuid} {ans : Uuid → Answers}
  {w : Hub} {t : Tid} {log : List Uuid} {left : ℕ} {summary : RefreshSummary}
  {Q : (Uuid → Option Account) → List Uuid → Prop}

/-- The loop of `refresh_due` works off its agenda. -/
theorem refreshDueLoop_iff (h : w.Still t) (htotal : summary.total = log.length) :
    Meets (sweeping ans t) (svc.refreshDueLoop lib companyId left summary).run (w, log)
        (Reported RefreshSummary.total Q) ↔
      (svc.agenda lib w.clock ans).Every Q left w.rows log := by
  induction left generalizing w log summary with
  | zero =>
    constructor
    · rintro ⟨b, -, -, hq⟩
      exact hq
    · intro hq
      exact ⟨summary, rfl, htotal, hq⟩
  | succ left ih =>
    simp only [refreshDueLoop, begin, commit, sql, ask, Prog.ask, meets_run_bind, meets_run_orFail]
    rw [given_succeeds.begin, meets_ret]
    simp only [Except.mapError]
    rw [h.sweeping_claim (A := svc.agenda lib w.clock ans) rfl (by simp [agenda])]
    -- Nothing is due and the loop ends, or it handles one of the soonest rows.
    refine and_congr (imp_congr_right fun _ => ?_) (Agenda.forall_soonest fun x r hr hs => ?_)
    · simp only [meets_ret, Except.mapError, meets_run_bind, meets_run_orFail]
      rw [given_succeeds.commit]
      have hrows : ((w.begun t).commit t).rows = w.rows := by
        funext x
        simp [Hub.rows, h.clean]
      constructor
      · rintro ⟨b, -, -, hq⟩
        rwa [hrows] at hq
      · intro hq
        refine ⟨summary, rfl, htotal, ?_⟩
        rwa [hrows]
    · obtain ⟨k, hk, -⟩ := hs
      obtain ⟨hactive, -, -⟩ := Account.dueAt_eq_some.mp (Agenda.key_of_due hk hr)
      simp only [meets_ret]
      refine Settles.round_iff hr ?_ ?_
      · rw [← htotal]
        exact refreshClaimed_settles (h.claim hr hactive)
      · intro b w' hb hstill hclock
        rw [ih hstill hb, hclock]

end IntegrationsOauthService

namespace RefreshJob

def agenda (lib : Crates) (job : RefreshJob) (now : Time) (ans : Uuid → Answers) :
    Agenda Uuid Account Time where
  key := Account.dueAt job.schedule.refreshWindowSeconds now
  step id r := (job.ending lib now r.provider (ans id)).row now r
  once := true

variable {lib : Crates} {job : RefreshJob} {companyId : Uuid} {ans : Uuid → Answers} {w : Hub} {t : Tid}
  {log : List Uuid} {left : ℕ} {report : RefreshReport} {Q : (Uuid → Option Account) → List Uuid → Prop}

theorem refreshLoop_iff (h : w.Still t) (htotal : report.total = log.length) :
    Meets (sweeping ans t) (job.refreshLoop lib companyId left log report).run (w, log)
        (Reported RefreshReport.total Q) ↔
      (agenda lib job w.clock ans).Every Q left w.rows log := by
  induction left generalizing w log report with
  | zero =>
    constructor
    · rintro ⟨b, -, -, hq⟩
      exact hq
    · intro hq
      exact ⟨report, rfl, htotal, hq⟩
  | succ left ih =>
    simp only [refreshLoop, sql, ask, Prog.ask, meets_run_bind, meets_run_orFail]
    rw [given_succeeds.begin, meets_ret]
    simp only [Except.mapError]
    rw [h.sweeping_claim (A := agenda lib job w.clock ans) rfl (by simp [agenda])]
    refine and_congr (imp_congr_right fun _ => ?_) (Agenda.forall_soonest fun x r hr hs => ?_)
    · simp only [meets_ret, Except.mapError, meets_run_bind, meets_run_orFail]
      rw [given_succeeds.rollback]
      constructor
      · rintro ⟨b, -, -, hq⟩
        exact hq
      · intro hq
        exact ⟨report, rfl, htotal, hq⟩
    · obtain ⟨k, hk, -⟩ := hs
      obtain ⟨hactive, -, -⟩ := Account.dueAt_eq_some.mp (Agenda.key_of_due hk hr)
      simp only [meets_ret]
      refine Settles.round_iff hr ?_ ?_
      · rw [← htotal]
        exact refreshOne_settles (h.claim hr hactive)
      · intro b w' hb hstill hclock
        rw [← hclock]
        exact ih hstill hb

end RefreshJob

/-! ## The table behind a sweep -/

/-- The time under which a sweep finds the account now. -/
def Hub.dueAt (w : Hub) (window : Int) (id : Uuid) : Option Time :=
  (w.accounts.lookup id).bind (Account.dueAt window w.clock)

/-- The row is as the refresh of this account alone leaves it. -/
def AsAlone {ε β : Type} (ans : Uuid → Answers) (t : Tid) (refresh : DueAccount → Flow ε β) (w w' : Hub)
    (id : Uuid) : Prop :=
  ∀ r, w.accounts.lookup id = some r →
    Meets (sweeping ans t) (refresh (r.toDue id)).run (w.claim t id, []) fun _ s =>
      s.1.accounts.lookup id = w'.accounts.lookup id

section

variable {w w' : Hub} {t : Tid} {ans : Uuid → Answers} {id : Uuid} {window : Int} {now : Time}
  {r r' : Account}
  {A : Agenda Uuid Account Time}

theorem Agenda.due_nil (hkey : A.key = Account.dueAt window w.clock) :
    A.due w.rows [] id = w.dueAt window id := by
  simp [Agenda.due, Hub.dueAt, Hub.rows, hkey]

theorem Hub.mem_dueIds_iff : id ∈ w.dueIds window ↔ w.dueAt window id ≠ none := by
  rw [mem_dueIds, dueAt, Option.ne_none_iff_exists']
  simp only [Option.bind_eq_some_iff]
  exact exists_comm

theorem Agenda.mem_due_iff (hkey : A.key = Account.dueAt window w.clock) (x : Uuid) :
    x ∈ w.dueIds window ↔ A.due w.rows [] x ≠ none := by
  rw [due_nil hkey, Hub.mem_dueIds_iff]

theorem ClaimedUpdate.set_set (u : ClaimedUpdate) (now : Time) (r : Account) :
    u.set now (u.set now r) = u.set now r := by
  cases u with
  | mirror expiresAt scopes lastRefreshedAt => cases scopes <;> rfl
  | _ => rfl

theorem Ending.row_row {v : Ending} (h : v.row now r = some r') :
    v.row now r' = some r' ∧ r'.provider = r.provider := by
  cases v with
  | breaks => cases h
  | leaves =>
    cases h
    exact ⟨rfl, rfl⟩
  | writes u =>
    cases h
    refine ⟨congrArg some (u.set_set now r), ?_⟩
    exact congrArg Prod.fst (u.set_key now r)

theorem asAlone_of_settles {ε β : Type} {refresh : DueAccount → Flow ε β} {total : β → ℕ} {n : ℕ}
    (hr : w.rows id = some r) (hstep : A.step id r = some r') (hw : w'.rows id = some r')
    (hp : Settles ans t (refresh (r.toDue id)) total n id (w.claim t id) [] (A.step id r)) :
    AsAlone ans t refresh w w' id := by
  intro r₁ hr₁
  rw [show w.accounts.lookup id = some r from hr] at hr₁
  cases hr₁
  rw [hstep] at hp
  obtain ⟨b, w₁, -, hsettled, hrun⟩ := hp
  rw [hrun]
  have hrow : w₁.rows id = some r' := by rw [hsettled.rows, Function.update_self]
  exact hrow.trans hw.symm

end

/-! Two accounts that are due. -/

def firstDue : Account := ⟨"gmail", "user@example.com", .active, "", none, some 3600000000, none⟩

def secondDue : Account := ⟨"gmail", "other@example.com", .active, "", none, some 3660000000, none⟩

def twoDue : Hub :=
  { mailHub with
    accounts := (AList.singleton 2 secondDue).insert 1 firstDue
    clock := 3300000000 }

def renewing : Answers := ⟨.ok mailBundle, .ok mailResponse, .ok 7⟩

theorem twoDue_still : twoDue.Still 0 := ⟨fun _ => rfl, rfl⟩

theorem twoDue_lookup {id : Uuid} {r : Account} (h : twoDue.accounts.lookup id = some r) :
    id = 1 ∧ r = firstDue ∨ id = 2 ∧ r = secondDue := by
  have hmem : (⟨id, r⟩ : Sigma fun _ : Uuid => Account) ∈ [⟨1, firstDue⟩, ⟨2, secondDue⟩] :=
    AList.mem_lookup_iff.mp h
  simpa using hmem

/-! ## The service -/

namespace IntegrationsOauthService

section

variable (lib : Crates) (svc : IntegrationsOauthService) (now : Time) (provider : String) (a : Answers)

/-- The bundle is inside the window, and the refresh token goes to the provider. -/
def Renews (prior : TokenBundle) : Prop :=
  a.read = .ok prior ∧ prior.refreshToken ≠ none ∧
    ∃ freshUntil, addSeconds prior.expiresAt (-svc.refreshWindow) = some freshUntil ∧ freshUntil < now

def Obtains (response : TokenResponse) : Prop :=
  (∃ prior, svc.Renews now a prior) ∧ (∃ found, svc.endpointsFor lib provider = .ok found) ∧
    a.exchange = .ok response

/-- The refresh panics, or it returns an error: no instant is that early or that late, or the store
refuses the successor. -/
def Fatal : Prop :=
  (∃ prior, a.read = .ok prior ∧ addSeconds prior.expiresAt (-svc.refreshWindow) = none) ∨
    ∃ response, svc.Obtains lib now provider a response ∧
      (Overlong response now ∨ (response.storable now).isSome ∧ ∃ f, a.rotate = .error f)

/-- The refresh rolls back. -/
def LeftDue : Prop :=
  (∃ f, a.read = .error f ∧ ¬ isDead f) ∨
    (∃ prior, svc.Renews now a prior) ∧
      ((∃ e, svc.endpointsFor lib provider = .error e) ∨ (∃ f, a.exchange = .error f ∧ ¬ f.isInvalidGrant) ∨
        ∃ response, a.exchange = .ok response ∧ response.lifetime = none)

/-- The refresh stores a successor with this expiry. -/
def Stored (expiresAt : Time) : Prop :=
  ∃ response, svc.Obtains lib now provider a response ∧ response.storable now = some expiresAt ∧
    ∃ cid, a.rotate = .ok cid

/-- After its refresh an account that was due under `k` is due under `k'`. -/
def DueAgain (k k' : Time) : Prop :=
  svc.LeftDue lib now provider a ∧ k' = k ∨
    svc.Stored lib now provider a k' ∧ k' < now + svc.refreshWindow * microsPerSecond

end

variable {lib : Crates} {svc : IntegrationsOauthService} {now : Time} {provider : String} {a : Answers}

theorem rotateEnding_cases (prior : TokenBundle) (response : TokenResponse) :
    (rotateEnding now a prior response = .breaks ↔
      Overlong response now ∨ (response.storable now).isSome ∧ ∃ f, a.rotate = .error f) ∧
    (rotateEnding now a prior response = .leaves ↔ response.lifetime = none) ∧
    ∀ e, (∃ scopes, rotateEnding now a prior response = .writes (.mirror e scopes now)) ↔
      response.storable now = some e ∧ ∃ cid, a.rotate = .ok cid := by
  unfold rotateEnding TokenResponse.storable
  rw [overlong_iff]
  cases hlife : response.lifetime with
  | none => simp
  | some secs =>
    cases hadd : addSeconds now secs with
    | none => simp [hadd]
    | some e => cases hrot : a.rotate <;> simp [hadd]

theorem ending_of_not_renews (provider : String) (h : ¬ ∃ prior, svc.Renews now a prior) :
    (svc.ending lib now provider a = .breaks ↔
      ∃ prior, a.read = .ok prior ∧ addSeconds prior.expiresAt (-svc.refreshWindow) = none) ∧
    (svc.ending lib now provider a = .leaves ↔ ∃ f, a.read = .error f ∧ ¬ isDead f) ∧
    ∀ e scopes, svc.ending lib now provider a ≠ .writes (.mirror e scopes now) := by
  unfold ending
  cases hread : a.read with
  | error f => cases hd : isDead f <;> simp [hd]
  | ok prior =>
    cases hfresh : addSeconds prior.expiresAt (-svc.refreshWindow) with
    | none => simp [hfresh]
    | some freshUntil =>
      by_cases hin : now ≤ freshUntil
      · simp [hfresh, hin]
      · have htok : prior.refreshToken = none := by
          by_contra hne
          exact h ⟨prior, hread, hne, freshUntil, hfresh, Int.not_le.mp hin⟩
        simp [hfresh, hin, priorEnding, htok]

theorem Renews.ending_eq {prior : TokenBundle} (h : svc.Renews now a prior) :
    svc.ending lib now provider a = svc.priorEnding lib now provider a prior := by
  obtain ⟨hread, -, freshUntil, hfresh, hlt⟩ := h
  simp only [ending, hread, hfresh, if_neg (Int.not_le.mpr hlt)]

theorem Renews.read_ok {prior : TokenBundle} (h : svc.Renews now a prior) :
    (¬ ∃ f, a.read = .error f ∧ ¬ isDead f) ∧
      ¬ ∃ prior, a.read = .ok prior ∧ addSeconds prior.expiresAt (-svc.refreshWindow) = none := by
  obtain ⟨hread, -, freshUntil, hfresh, -⟩ := h
  simp [hread, hfresh]

theorem ending_cases (lib : Crates) (svc : IntegrationsOauthService) (now : Time) (provider : String)
    (a : Answers) :
    (svc.ending lib now provider a = .breaks ↔ svc.Fatal lib now provider a) ∧
    (svc.ending lib now provider a = .leaves ↔ svc.LeftDue lib now provider a) ∧
    ∀ e, (∃ scopes, svc.ending lib now provider a = .writes (.mirror e scopes now)) ↔
      svc.Stored lib now provider a e := by
  unfold Fatal LeftDue Stored Obtains
  by_cases hrenews : ∃ prior, svc.Renews now a prior
  · obtain ⟨prior, hprior⟩ := id hrenews
    obtain ⟨token, htok⟩ := Option.ne_none_iff_exists'.mp hprior.2.1
    rw [hprior.ending_eq]
    simp only [hprior.read_ok, hrenews, true_and, false_or, priorEnding, htok]
    cases hfound : svc.endpointsFor lib provider with
    | error e => simp
    | ok found =>
      cases hex : a.exchange with
      | error f => cases hg : f.isInvalidGrant <;> simp [hg]
      | ok response => simpa using rotateEnding_cases prior response
  · simp only [hrenews, false_and, exists_false, or_false, iff_false]
    obtain ⟨hbreaks, hleaves, hwrites⟩ := ending_of_not_renews provider hrenews
    refine ⟨hbreaks, hleaves, fun e => ?_⟩
    rintro ⟨scopes, h⟩
    exact hwrites e scopes h

/-- The updates of the service. A bundle that is only mirrored is not due. -/
def Usual (svc : IntegrationsOauthService) (now : Time) : Ending → Prop
  | .breaks | .leaves | .writes .expireActive => True
  | .writes (.resync e) => now + svc.refreshWindow * microsPerSecond ≤ e
  | .writes (.mirror _ _ refreshedAt) => refreshedAt = now
  | .writes .expire | .writes (.mirrorNow _) => False

theorem ending_usual (lib : Crates) (svc : IntegrationsOauthService) (now : Time) (provider : String)
    (a : Answers) :
    svc.Usual now (svc.ending lib now provider a) := by
  unfold ending
  split
  · split <;> trivial
  · split
    · trivial
    · rename_i prior hread _ freshUntil hfresh
      split
      · rename_i hin
        -- A fresh bundle expires outside the window.
        have heq := addSeconds_eq hfresh
        rw [Int.neg_mul] at heq
        change now + svc.refreshWindow * microsPerSecond ≤ prior.expiresAt
        refine Int.add_le_of_le_sub_right ?_
        rwa [Int.sub_eq_add_neg, ← heq]
      · unfold priorEnding
        split
        · trivial
        · split
          · trivial
          · split
            · unfold rotateEnding
              split
              · trivial
              · split
                · trivial
                · split
                  · rfl
                  · trivial
            · split <;> trivial

theorem dueAgain_iff {r : Account} {k k' : Time} (hk : r.dueAt svc.refreshWindow now = some k) :
    (∃ r', (svc.ending lib now r.provider a).row now r = some r' ∧
        r'.dueAt svc.refreshWindow now = some k') ↔ svc.DueAgain lib now r.provider a k k' := by
  obtain ⟨hactive, hexp, hlt⟩ := Account.dueAt_eq_some.mp hk
  obtain ⟨-, hleaves, hstored⟩ := ending_cases lib svc now r.provider a
  have husual := ending_usual lib svc now r.provider a
  unfold DueAgain
  rw [← hleaves, ← hstored]
  cases hv : svc.ending lib now r.provider a with
  | breaks => simp [Ending.row]
  | leaves => simp [Ending.row, hk, eq_comm]
  | writes u =>
    rw [hv] at husual
    cases u with
    | expireActive => simp [Ending.row, ClaimedUpdate.set, Account.dueAt]
    | expire | mirrorNow e => exact husual.elim
    | resync e =>
      have hnot : ¬ e < now + svc.refreshWindow * microsPerSecond := Int.not_lt.mpr husual
      simp [Ending.row, ClaimedUpdate.set, Account.dueAt, hactive, Option.filter, hnot]
    | mirror e scopes refreshedAt =>
      cases husual
      simp [Ending.row, ClaimedUpdate.set, Account.dueAt_eq_some, hactive]

/-- One call of `refresh_due` attempts each due account once. It leaves every one of them as
`refresh_claimed` alone does, and no other account changes. -/
structure EachOnce (lib : Crates) (svc : IntegrationsOauthService) (companyId : Uuid)
    (ans : Uuid → Answers) (t : Tid) (w : Hub) (res : Except OauthError RefreshSummary)
    (s : Hub × List Uuid) : Prop where
  returns : ∃ summary, res = .ok summary ∧ summary.total = (w.dueIds svc.refreshWindow).length
  attempts : s.2.Perm (w.dueIds svc.refreshWindow)
  alone : ∀ id ∈ w.dueIds svc.refreshWindow, AsAlone ans t (svc.refreshClaimed lib companyId · {}) w s.1 id
  others : ∀ id ∉ w.dueIds svc.refreshWindow, s.1.accounts.lookup id = w.accounts.lookup id

/-- No refresh of a due account is fatal. Where an account is due again, the batch is just as large as
the number of the due accounts, and each other account that is due no sooner is due before it is again. -/
structure Unhindered (lib : Crates) (svc : IntegrationsOauthService) (ans : Uuid → Answers) (w : Hub) :
    Prop where
  ends : ∀ id r, w.accounts.lookup id = some r → id ∈ w.dueIds svc.refreshWindow →
    ¬ svc.Fatal lib w.clock r.provider (ans id)
  again : ∀ id r k k', w.accounts.lookup id = some r → r.dueAt svc.refreshWindow w.clock = some k →
    svc.DueAgain lib w.clock r.provider (ans id) k k' →
    svc.refreshBatchSize = (w.dueIds svc.refreshWindow).length ∧
      ∀ id' l, id' ≠ id → w.dueAt svc.refreshWindow id' = some l → k ≤ l → l < k'

variable {companyId : Uuid} {ans : Uuid → Answers} {w : Hub} {t : Tid}

theorem agenda_idem (x : Uuid) (r r' : Account) (h : (svc.agenda lib now ans).step x r = some r') :
    (svc.agenda lib now ans).step x r' = some r' := by
  obtain ⟨hrow, hprovider⟩ := Ending.row_row h
  simpa only [agenda, hprovider] using hrow

theorem eachOnce_of_swept (hstill : w.Still t)
    (hfair : (svc.agenda lib w.clock ans).Fair w.rows (w.dueIds svc.refreshWindow) svc.refreshBatchSize)
    {res : Except OauthError RefreshSummary} {s : Hub × List Uuid}
    (h : Reported RefreshSummary.total
      ((svc.agenda lib w.clock ans).Swept w.rows (w.dueIds svc.refreshWindow)) res s) :
    svc.EachOnce lib companyId ans t w res s := by
  obtain ⟨summary, rfl, htotal, hperm, hrows⟩ := h
  refine ⟨⟨summary, rfl, htotal.trans hperm.length_eq⟩, hperm, fun id hid => ?_, fun id hid => ?_⟩
  · obtain ⟨r', hr'⟩ := Option.ne_none_iff_exists'.mp (hfair.1 id hid)
    obtain ⟨r, e, hr, he⟩ := Hub.mem_dueIds.mp hid
    have hstep : (svc.agenda lib w.clock ans).step id r = some r' := by
      rwa [Agenda.handle, show w.rows id = some r from hr] at hr'
    refine asAlone_of_settles hr hstep ?_
      (refreshClaimed_settles (hstill.claim hr (Account.dueAt_eq_some.mp he).1))
    rw [hrows, if_pos hid, hr']
  · have hrow := hrows id
    rwa [if_neg hid] at hrow

theorem refreshDue_iff_fair (hstill : w.Still t)
    (hbatch : (w.dueIds svc.refreshWindow).length ≤ svc.refreshBatchSize) :
    Meets (sweeping ans t) (svc.refreshDue lib companyId).run (w, []) (svc.EachOnce lib companyId ans t w) ↔
      (svc.agenda lib w.clock ans).Fair w.rows (w.dueIds svc.refreshWindow) svc.refreshBatchSize := by
  constructor
  · intro h
    have hended : Meets (sweeping ans t) (svc.refreshDue lib companyId).run (w, [])
        (Reported RefreshSummary.total fun _ past => past.Perm (w.dueIds svc.refreshWindow)) := by
      refine h.mono fun res s hs => ?_
      obtain ⟨summary, hres, htotal⟩ := hs.returns
      exact ⟨summary, hres, htotal.trans hs.attempts.length_eq.symm, hs.attempts⟩
    exact Agenda.fair_of_every rfl Hub.rows_finite (Agenda.mem_due_iff rfl) agenda_idem
      ((refreshDueLoop_iff hstill rfl).mp hended)
  · intro hfair
    have hswept := Agenda.every_of_fair rfl (Agenda.mem_due_iff rfl) Hub.dueIds_nodup hbatch hfair
    exact ((refreshDueLoop_iff hstill rfl).mpr hswept).mono fun _ _ => eachOnce_of_swept hstill hfair

theorem fair_iff_unhindered :
    (svc.agenda lib w.clock ans).Fair w.rows (w.dueIds svc.refreshWindow) svc.refreshBatchSize ↔
      svc.Unhindered lib ans w := by
  have hstep : ∀ {id r}, w.accounts.lookup id = some r → (svc.agenda lib w.clock ans).handle w.rows id =
      (svc.ending lib w.clock r.provider (ans id)).row w.clock r := by
    intro id r hr
    rw [Agenda.handle, show w.rows id = some r from hr]
    rfl
  have hbreaks : ∀ {id r}, (svc.ending lib w.clock r.provider (ans id)).row w.clock r = none ↔
      svc.Fatal lib w.clock r.provider (ans id) := by
    intro id r
    rw [← (ending_cases lib svc w.clock r.provider (ans id)).1]
    cases svc.ending lib w.clock r.provider (ans id) <;> simp [Ending.row]
  constructor
  · intro h
    constructor
    · intro id r hr hid hfatal
      refine h.1 id hid ?_
      rw [hstep hr, hbreaks]
      exact hfatal
    · intro id r k k' hr hk hagain
      obtain ⟨r', hr', hk'⟩ := (dueAgain_iff hk).mpr hagain
      have hdue : (svc.agenda lib w.clock ans).due w.rows [] id = some k := by
        rw [Agenda.due_nil rfl, Hub.dueAt, hr]
        exact hk
      obtain ⟨hlen, hbehind⟩ := h.2 id k k' r' hdue (by rw [hstep hr, hr']) hk'
      refine ⟨hlen, fun id' l hne hl hkl => hbehind id' l hne ?_ hkl⟩
      rw [Agenda.due_nil rfl, hl]
  · intro h
    constructor
    · intro id hid hnone
      obtain ⟨r, e, hr, he⟩ := Hub.mem_dueIds.mp hid
      rw [hstep hr, hbreaks] at hnone
      exact h.ends id r hr hid hnone
    · intro id k k' r' hk hr' hk'
      rw [Agenda.due_nil rfl] at hk
      obtain ⟨r, hr, hkr⟩ := Option.bind_eq_some_iff.mp hk
      rw [hstep hr] at hr'
      obtain ⟨hlen, hbehind⟩ := h.again id r k k' hr hkr ((dueAgain_iff hkr).mp ⟨r', hr', hk'⟩)
      refine ⟨hlen, fun id' l hne hl hkl => hbehind id' l hne ?_ hkl⟩
      rwa [Agenda.due_nil rfl] at hl

/-- **`refresh_due` covers its table** exactly if no refresh is fatal and no account that is due again
gets ahead. It does not remember what it has attempted, so an account that is left due is claimed again
and again, and the accounts behind it wait. -/
theorem refresh_due_each_once_iff (lib : Crates) (svc : IntegrationsOauthService) (companyId : Uuid)
    (ans : Uuid → Answers) (t : Tid) (w : Hub) (hstill : w.Still t)
    (hbatch : (w.dueIds svc.refreshWindow).length ≤ svc.refreshBatchSize) :
    Meets (sweeping ans t) (svc.refreshDue lib companyId).run (w, []) (svc.EachOnce lib companyId ans t w) ↔
      svc.Unhindered lib ans w :=
  (refreshDue_iff_fair hstill hbatch).trans fair_iff_unhindered

/-! The first account cannot be read. -/

def storeDown : Answers := ⟨.error ⟨OAuthCredentialFailure.codeTransport, ""⟩, .ok mailResponse, .ok 7⟩

/-! The first account is claimed in every round, and the second one in none. -/

theorem left_due_account_hides_another :
    ¬ Meets (sweeping (fun id => if id = 1 then storeDown else renewing) 0)
      (mailService.refreshDue mailCrates 9).run (twoDue, [])
      (mailService.EachOnce mailCrates 9 (fun id => if id = 1 then storeDown else renewing) 0 twoDue) := by
  rw [refreshDue_iff_fair twoDue_still (by decide), fair_iff_unhindered]
  intro h
  have hleft : mailService.LeftDue mailCrates twoDue.clock "gmail" storeDown := .inl ⟨_, rfl, by decide⟩
  obtain ⟨hbatch, -⟩ := h.again 1 firstDue 3600000000 3600000000 rfl rfl (.inl ⟨hleft, rfl⟩)
  exact absurd hbatch (by decide)

theorem renewed_unhindered : mailService.Unhindered mailCrates (fun _ => renewing) twoDue := by
  have hending : mailService.ending mailCrates twoDue.clock "gmail" renewing =
      .writes (.mirror 6900000000 mailBundle.scope twoDue.clock) := by decide
  have hgmail : ∀ {id r}, twoDue.accounts.lookup id = some r → r.provider = "gmail" := by
    intro id r hr
    rcases twoDue_lookup hr with ⟨-, rfl⟩ | ⟨-, rfl⟩ <;> rfl
  obtain ⟨hfatal, hleaves, hstored⟩ :=
    ending_cases mailCrates mailService twoDue.clock "gmail" renewing
  constructor
  · intro id r hr _
    rw [hgmail hr, ← hfatal, hending]
    nofun
  · intro id r k k' hr hk hagain
    rw [hgmail hr, DueAgain, ← hleaves, ← hstored, hending] at hagain
    rcases hagain with ⟨h, -⟩ | ⟨⟨scopes, h⟩, hlt⟩
    · cases h
    · cases h
      exact absurd hlt (by decide)

theorem refresh_due_each_once_renewed :
    Meets (sweeping (fun _ => renewing) 0) (mailService.refreshDue mailCrates 9).run (twoDue, [])
      (mailService.EachOnce mailCrates 9 (fun _ => renewing) 0 twoDue) :=
  (refresh_due_each_once_iff mailCrates mailService 9 (fun _ => renewing) 0 twoDue twoDue_still
    (by decide)).mpr renewed_unhindered

end IntegrationsOauthService

/-! ## The job -/

/-- The due accounts that are due under an earlier time. -/
def Hub.sooner (w : Hub) (window : Int) (id : Uuid) : List Uuid :=
  (w.dueIds window).filter fun id' => ∃ k ∈ w.dueAt window id', ∃ l ∈ w.dueAt window id, k < l

namespace RefreshJob

/-- The refresh gets to an answer of the provider with a lifetime that no clock can hold. -/
def Endless (lib : Crates) (job : RefreshJob) (now : Time) (provider : String) (a : Answers) : Prop :=
  (∃ endpoints, ValidatedEndpoints.resolve lib.toUrlCrate job.registry provider job.overrides =
    .ok endpoints) ∧
  (∃ client, job.clients.get provider = some client) ∧
  ∃ bundle response, a.read = .ok bundle ∧ bundle.refreshToken ≠ none ∧ a.exchange = .ok response ∧
    Overlong response now

/-- One run attempts the due accounts with the earliest expiry, as many as the batch takes, and each
once. It leaves every one of them as `refresh_one` alone does, and no other account changes. -/
structure EarliestOnce (lib : Crates) (job : RefreshJob) (companyId : Uuid) (ans : Uuid → Answers) (t : Tid)
    (w : Hub) (res : Except DbError RefreshReport) (s : Hub × List Uuid) : Prop where
  returns : ∃ report, res = .ok report ∧ report.total = s.2.length
  once : s.2.Nodup
  due : s.2 ⊆ w.dueIds job.schedule.refreshWindowSeconds
  count : s.2.length =
    min job.schedule.refreshBatchSize.toNat (w.dueIds job.schedule.refreshWindowSeconds).length
  earliest : ∀ x ∈ s.2, ∀ y ∈ w.dueIds job.schedule.refreshWindowSeconds, y ∉ s.2 → ∀ k l,
    w.dueAt job.schedule.refreshWindowSeconds x = some k →
    w.dueAt job.schedule.refreshWindowSeconds y = some l → k ≤ l
  alone : ∀ id ∈ s.2, AsAlone ans t (job.refreshOne lib companyId · {}) w s.1 id
  others : ∀ id ∉ s.2, s.1.accounts.lookup id = w.accounts.lookup id

/-- An account with an endless answer has so many others before it that the batch does not get to it. -/
def Spared (lib : Crates) (job : RefreshJob) (ans : Uuid → Answers) (w : Hub) : Prop :=
  ∀ id r, w.accounts.lookup id = some r → id ∈ w.dueIds job.schedule.refreshWindowSeconds →
    job.Endless lib w.clock r.provider (ans id) →
    job.schedule.refreshBatchSize.toNat ≤ (w.sooner job.schedule.refreshWindowSeconds id).length

variable {lib : Crates} {job : RefreshJob} {companyId : Uuid} {ans : Uuid → Answers} {w : Hub} {t : Tid}
  {now : Time} {provider : String} {a : Answers}

theorem rotateEnding_breaks_iff {response : TokenResponse} :
    rotateEnding now a response = .breaks ↔ Overlong response now := by
  unfold rotateEnding
  rw [overlong_iff]
  cases hlife : response.lifetime with
  | none => simp
  | some secs =>
    cases hadd : addSeconds now secs with
    | none => simp [hadd]
    | some e =>
      cases a.rotate with
      | ok cid => simp [hadd]
      | error f => cases hf : f.isTransport <;> simp [hadd, hf]

theorem ending_breaks_iff : job.ending lib now provider a = .breaks ↔ Endless lib job now provider a := by
  unfold ending Endless
  cases ValidatedEndpoints.resolve lib.toUrlCrate job.registry provider job.overrides with
  | error e => simp
  | ok endpoints =>
    cases job.clients.get provider with
    | none => simp
    | some client =>
      unfold bundleEnding
      cases hread : a.read with
      | error f => cases hf : f.isTransport <;> simp [hf]
      | ok bundle =>
        cases htok : bundle.refreshToken with
        | none => simp [htok]
        | some token =>
          cases hex : a.exchange with
          | error f => cases hg : f.isInvalidGrant <;> simp [htok, hg]
          | ok response => simp [htok, rotateEnding_breaks_iff]

theorem earliestOnce_of_picked (hstill : w.Still t) {res : Except DbError RefreshReport}
    {s : Hub × List Uuid}
    (h : Reported RefreshReport.total ((agenda lib job w.clock ans).Picked w.rows
      (w.dueIds job.schedule.refreshWindowSeconds) job.schedule.refreshBatchSize.toNat) res s) :
    EarliestOnce lib job companyId ans t w res s := by
  obtain ⟨report, rfl, htotal, hlen, left, hs⟩ := h
  refine ⟨⟨report, rfl, htotal⟩, hs.nodup, hs.subset, hlen, ?_, fun id hid => ?_, fun id hid => ?_⟩
  · intro x hx y hy hyp k l hk hl
    refine hs.early x hx y hy hyp k l ?_ ?_
    · rw [Agenda.due_nil rfl, hk]
    · rw [Agenda.due_nil rfl, hl]
  · obtain ⟨r', hr'⟩ := Option.ne_none_iff_exists'.mp (hs.ends id hid)
    obtain ⟨r, e, hr, he⟩ := Hub.mem_dueIds.mp (hs.subset hid)
    have hstep : (agenda lib job w.clock ans).step id r = some r' := by
      rwa [Agenda.handle, show w.rows id = some r from hr] at hr'
    refine asAlone_of_settles hr hstep ?_
      (refreshOne_settles (hstill.claim hr (Account.dueAt_eq_some.mp he).1))
    rw [hs.rows, if_pos hid, hr']
  · have hrow := hs.rows id
    rwa [if_neg hid] at hrow

theorem refreshOauthCredentials_iff (hstill : w.Still t) :
    Meets (sweeping ans t) (job.refreshOauthCredentials lib companyId).run (w, [])
        (EarliestOnce lib job companyId ans t w) ↔
      (agenda lib job w.clock ans).OutOfReach w.rows (w.dueIds job.schedule.refreshWindowSeconds)
        job.schedule.refreshBatchSize.toNat := by
  constructor
  · intro h
    have hended : Meets (sweeping ans t) (job.refreshOauthCredentials lib companyId).run (w, [])
        (Reported RefreshReport.total fun _ past => past.Nodup ∧ past.length =
          min job.schedule.refreshBatchSize.toNat (w.dueIds job.schedule.refreshWindowSeconds).length) := by
      refine h.mono fun res s hs => ?_
      obtain ⟨report, hres, htotal⟩ := hs.returns
      exact ⟨report, hres, htotal, hs.once, hs.count⟩
    exact Agenda.outOfReach_of_every rfl Hub.rows_finite (Agenda.mem_due_iff rfl)
      ((refreshLoop_iff hstill rfl).mp hended)
  · intro hreach
    have hpicked := Agenda.every_of_outOfReach rfl (Agenda.mem_due_iff rfl) Hub.dueIds_nodup hreach
    exact ((refreshLoop_iff hstill rfl).mpr hpicked).mono fun _ _ => earliestOnce_of_picked hstill

theorem outOfReach_iff_spared :
    (agenda lib job w.clock ans).OutOfReach w.rows (w.dueIds job.schedule.refreshWindowSeconds)
        job.schedule.refreshBatchSize.toNat ↔ Spared lib job ans w := by
  have hbreaks : ∀ {id r}, w.accounts.lookup id = some r →
      ((agenda lib job w.clock ans).handle w.rows id = none ↔
        Endless lib job w.clock r.provider (ans id)) := by
    intro id r hr
    have hstep : (agenda lib job w.clock ans).handle w.rows id =
        (job.ending lib w.clock r.provider (ans id)).row w.clock r := by
      rw [Agenda.handle, show w.rows id = some r from hr]
      rfl
    rw [hstep, ← ending_breaks_iff]
    cases job.ending lib w.clock r.provider (ans id) <;> simp [Ending.row]
  have hsooner : ∀ id, (w.dueIds job.schedule.refreshWindowSeconds).filter
      ((agenda lib job w.clock ans).Ahead w.rows · id) =
        w.sooner job.schedule.refreshWindowSeconds id := by
    intro id
    refine List.filter_congr fun id' _ => ?_
    simp only [Agenda.Ahead, Agenda.due_nil (A := agenda lib job w.clock ans) rfl]
  unfold Agenda.OutOfReach Spared
  constructor
  · intro h id r hr hid hendless
    rw [← hsooner]
    exact h id hid ((hbreaks hr).mpr hendless)
  · intro h id hid hnone
    obtain ⟨r, e, hr, -⟩ := Hub.mem_dueIds.mp hid
    rw [hsooner]
    exact h id r hr hid ((hbreaks hr).mp hnone)

/-- **The job attempts the earliest due accounts once** exactly if its batch does not get to an account
with an endless answer. Such an answer panics, and the accounts behind it are not attempted. -/
theorem refresh_oauth_credentials_earliest_iff (lib : Crates) (job : RefreshJob) (companyId : Uuid)
    (ans : Uuid → Answers) (t : Tid) (w : Hub) (hstill : w.Still t) :
    Meets (sweeping ans t) (job.refreshOauthCredentials lib companyId).run (w, [])
        (EarliestOnce lib job companyId ans t w) ↔
      Spared lib job ans w :=
  (refreshOauthCredentials_iff hstill).trans outOfReach_iff_spared

/-! The provider gives the first account a lifetime that no clock can hold. -/

def overlong : Answers := ⟨.ok mailBundle, .ok endlessResponse, .ok 7⟩

/-! The run panics at the first account, and it does not get to the second one. -/

theorem endless_account_hides_another :
    ¬ Meets (sweeping (fun id => if id = 1 then overlong else renewing) 0)
      (mailJob.refreshOauthCredentials mailCrates 9).run (twoDue, [])
      (EarliestOnce mailCrates mailJob 9 (fun id => if id = 1 then overlong else renewing) 0 twoDue) := by
  rw [refreshOauthCredentials_iff twoDue_still, outOfReach_iff_spared]
  intro h
  have hbatch := h 1 firstDue rfl (by decide) ⟨⟨_, gmail_resolved⟩, ⟨_, rfl⟩, mailBundle, endlessResponse,
    rfl, by decide, rfl, 10000000000000000, rfl, by decide, by decide⟩
  exact absurd hbatch (by decide)

theorem refresh_oauth_credentials_earliest_renewed :
    Meets (sweeping (fun _ => renewing) 0) (mailJob.refreshOauthCredentials mailCrates 9).run (twoDue, [])
      (EarliestOnce mailCrates mailJob 9 (fun _ => renewing) 0 twoDue) := by
  refine (refresh_oauth_credentials_earliest_iff mailCrates mailJob 9 (fun _ => renewing) 0 twoDue
    twoDue_still).mpr ?_
  rintro id r - - ⟨-, -, bundle, response, -, -, hex, secs, hsecs, -, hout⟩
  cases hex
  cases hsecs
  exact absurd (by decide) hout

end RefreshJob

end BackboneIntegrations.OAuth
