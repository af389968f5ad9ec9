import BackboneIntegrations.OAuth.Crash
import BackboneIntegrations.OAuth.Flight

/-!
# At most one rotation

A call that has rotated keeps the row locked until its mirror is there, and from then on nothing
finds the account due or its bundle stale.
-/

open Interleave

namespace BackboneIntegrations.OAuth

/-! ## The invariant -/

/-- Thread `t` has the lock of the account, which is active. -/
structure Held (w : Hub) (t : Tid) (d : DueAccount) : Prop where
  holder : w.txs.holder d.id = some t
  row : ∃ r, w.accounts.lookup d.id = some r ∧ r.status = .active ∧ d = r.toDue d.id

/-- What a stage says about the world, where `n` counts the rotations. -/
def Stage.Fits (sp : Span) (co : Uuid) (w : Hub) (n : CredentialScope → Nat) (t : Tid) : Stage → Prop
  | .free => w.txs.writes t = []
  | .opened => w.txs.writes t = [] ∧ w.began t ≤ sp.stop
  | .claimed d first => Held w t d ∧ w.txs.writes t = [] ∧ (first → n (d.scope co) = 0)
  | .rotated d => Held w t d ∧ w.txs.writes t = []
  | .settled d => Held w t d ∧ ∃ u now, w.txs.writes t = [.update d.id u now] ∧
    (n (d.scope co) = 0 ∨ sp.Settles u)

/-- The call has rotated or written, and has not committed. -/
def Stage.Pending (id : Uuid) : Stage → Prop
  | .rotated d | .settled d => d.id = id
  | .free | .opened | .claimed .. => False

/-- The bundle of the scope outlasts the span. -/
def Span.Lasting (sp : Span) (w : Hub) (scope : CredentialScope) : Prop :=
  ∃ c, w.current scope = some c ∧ sp.limit < c.bundle.expiresAt

/-- The row is not due any more before the span ends. -/
def Span.Past (sp : Span) (r : Account) : Prop :=
  r.status = .active → ∃ e, r.expiresAt = some e ∧ sp.limit < e

structure Flight (sp : Span) (co : Uuid) (w : Hub) (n : CredentialScope → Nat) (g : Tid → Stage) :
    Prop where
  clock : sp.start ≤ w.clock ∧ w.clock ≤ sp.stop
  fits : ∀ t, (g t).Fits sp co w n t
  once : ∀ scope, n scope ≤ 1
  unique : ∀ id id' r r', w.accounts.lookup id = some r → w.accounts.lookup id' = some r' →
    r.key = r'.key → id = id'
  lasting : ∀ id r, w.accounts.lookup id = some r → n (r.scope co) ≠ 0 →
    sp.Lasting w (r.scope co) ∧ (sp.Past r ∨ ∃ t, (g t).Pending id)

/-! ## What the other threads keep -/

section

variable {sp : Span} {co : Uuid} {w w' : Hub} {n n' : CredentialScope → Nat} {g : Tid → Stage}
  {t u : Tid} {op : Op} {ans : Ans op} {s : Stage} {d : DueAccount}

theorem Stage.Fits.held (h : s.Fits sp co w n t) {id : Uuid} (hp : s.Pending id) :
    w.txs.holder id = some t := by
  cases s with
  | rotated d | settled d =>
    cases hp
    exact h.1.holder
  | free | opened | claimed => exact hp.elim

theorem Stage.Fits.writes (h : s.Fits sp co w n t) {wr : Write} (hw : wr ∈ w.txs.writes t) :
    w.txs.holder wr.id = some t := by
  have hnil : w.txs.writes t = [] → False := fun hnil => by
    rw [hnil] at hw
    cases hw
  cases s with
  | free => exact (hnil h).elim
  | opened => exact (hnil h.1).elim
  | claimed d first => exact (hnil h.2.1).elim
  | rotated d => exact (hnil h.2).elim
  | settled d =>
    obtain ⟨hd, u, now, hws, -⟩ := h
    rw [hws, List.mem_singleton] at hw
    subst hw
    exact hd.holder

/-- What the step of a thread leaves to the others. -/
structure Apart (w w' : Hub) (u : Tid) : Prop where
  holder : ∀ {id}, w.txs.holder id = some u → w'.txs.holder id = some u
  lookup : ∀ {id}, w.txs.holder id = some u → w'.accounts.lookup id = w.accounts.lookup id
  writes : w'.txs.writes u = w.txs.writes u
  began : w'.began u = w.began u

theorem Flight.apart (h : Flight sp co w n g) (hch : Hub.Change t w op ans w') (hu : u ≠ t) :
    Apart w w' u where
  holder hid := hch.holder_keeps hid fun heq => absurd heq hu
  lookup hid := hch.lookup_keeps hid (fun heq => absurd heq hu) fun _ wr hwr heq => by
    have hheld := (h.fits t).writes hwr
    rw [heq, hid] at hheld
    exact hu (Option.some.inj hheld)
  writes := (hch.others hu).1
  began := (hch.others hu).2

theorem Held.apart (h : Held w u d) (ha : Apart w w' u) : Held w' u d := by
  obtain ⟨r, hr, hs, hd⟩ := h.row
  exact ⟨ha.holder h.holder, r, by rw [ha.lookup h.holder, hr], hs, hd⟩

theorem Stage.Fits.apart (h : s.Fits sp co w n u) (ha : Apart w w' u)
    (hn : ∀ d, Held w u d → n' (d.scope co) = n (d.scope co)) : s.Fits sp co w' n' u := by
  cases s with
  | free => exact ha.writes.trans h
  | opened => exact ⟨ha.writes.trans h.1, ha.began.symm ▸ h.2⟩
  | claimed d first =>
    obtain ⟨hd, hw, hfirst⟩ := h
    exact ⟨hd.apart ha, ha.writes.trans hw, fun hf => (hn d hd).trans (hfirst hf)⟩
  | rotated d => exact ⟨h.1.apart ha, ha.writes.trans h.2⟩
  | settled d =>
    obtain ⟨hd, u', now, hw, hset⟩ := h
    exact ⟨hd.apart ha, u', now, ha.writes.trans hw, by rwa [hn d hd]⟩

theorem Flight.fits_step (h : Flight sp co w n g) (hch : Hub.Change t w op ans w')
    (hs : s.Fits sp co w' n' t) (hn : ∀ u d, u ≠ t → Held w u d → n' (d.scope co) = n (d.scope co)) :
    ∀ u, (Function.update g t s u).Fits sp co w' n' u := by
  intro u
  by_cases hu : u = t
  · subst hu
    rwa [Function.update_self]
  · rw [Function.update_of_ne hu]
    exact (h.fits u).apart (h.apart hch hu) fun d hd => hn u d hu hd

theorem Flight.still (h : Flight sp co w n g) (hch : Hub.Change t w op ans w')
    (hT : w'.accounts = w.accounts) (hcs : w'.credentials = w.credentials)
    (hclock : w'.clock = w.clock) (hs : s.Fits sp co w' n t)
    (hp : ∀ id, (g t).Pending id → s.Pending id) :
    Flight sp co w' n (Function.update g t s) where
  clock := by
    rw [hclock]
    exact h.clock
  fits := h.fits_step hch hs fun _ _ _ _ => rfl
  once := h.once
  unique := by
    rw [hT]
    exact h.unique
  lasting := by
    intro id r hr hn
    rw [hT] at hr
    obtain ⟨hlast, hrow⟩ := h.lasting id r hr hn
    refine ⟨?_, hrow.imp_right ?_⟩
    · obtain ⟨c, hc, he⟩ := hlast
      refine ⟨c, ?_, he⟩
      rw [Hub.current, hcs]
      exact hc
    · rintro ⟨u, hu⟩
      refine ⟨u, ?_⟩
      by_cases hut : u = t
      · subst hut
        rw [Function.update_self]
        exact hp id hu
      · rwa [Function.update_of_ne hut]

/-! ## The steps that matter -/

theorem Span.Settles.past {v : ClaimedUpdate} (h : sp.Settles v) (now : Time) (r : Account) :
    sp.Past (v.set now r) := by
  intro ha
  cases v with
  | expireActive => cases ha
  | expire => cases ha
  | resync e => exact ⟨e, rfl, h⟩
  | mirror e scopes now' => exact ⟨e, rfl, h⟩
  | mirrorNow e => exact ⟨e, rfl, h⟩

theorem Flight.committed (h : Flight sp co w n g) (hg : g t = .settled d) :
    Flight sp co (w.commit t) n (Function.update g t .free) := by
  have hfit := h.fits t
  rw [hg] at hfit
  obtain ⟨hd, v, now, hw, hset⟩ := hfit
  obtain ⟨r, hr, hact, hdue⟩ := hd.row
  have hscope : r.scope co = d.scope co := by rw [hdue]; rfl
  have hT : ∀ x, (w.commit t).accounts.lookup x =
      if x = d.id then some (v.set now r) else w.accounts.lookup x := by
    intro x
    rw [Hub.commit_accounts, hw, List.foldl_cons, List.foldl_nil, Hub.apply_lookup, Write.id]
    by_cases hx : x = d.id
    · rw [if_pos hx, if_pos hx, hx, hr]
      rfl
    · rw [if_neg hx, if_neg hx]
  have hold : ∀ x s, (w.commit t).accounts.lookup x = some s →
      ∃ s', w.accounts.lookup x = some s' ∧ s.key = s'.key := by
    intro x s hs
    rw [hT] at hs
    split at hs
    · cases hs
      subst_vars
      exact ⟨r, hr, ClaimedUpdate.set_key ..⟩
    · exact ⟨s, hs, rfl⟩
  refine ⟨?_, h.fits_step .commit ?_ fun _ _ _ _ => rfl, h.once, ?_, ?_⟩
  · rw [Hub.commit_clock]
    exact h.clock
  · exact Txs.clear_writes_self
  · intro x y s s' hs hs' hk
    obtain ⟨s₁, hs₁, hk₁⟩ := hold x s hs
    obtain ⟨s₂, hs₂, hk₂⟩ := hold y s' hs'
    exact h.unique x y s₁ s₂ hs₁ hs₂ (by rw [← hk₁, ← hk₂, hk])
  · intro x s hs hn
    have hlasting : ∀ scope, sp.Lasting w scope → sp.Lasting (w.commit t) scope := by
      rintro scope ⟨c, hc, he⟩
      refine ⟨c, ?_, he⟩
      rw [Hub.current, Hub.commit_credentials]
      exact hc
    rw [hT] at hs
    split at hs
    · cases hs
      have hkey : (v.set now r).scope co = r.scope co := scope_eq_iff.mpr (ClaimedUpdate.set_key ..)
      rw [hkey] at hn ⊢
      refine ⟨hlasting _ (h.lasting _ r hr hn).1, .inl ?_⟩
      -- The row that this commit changes gets an expiry beyond the span, so no sweep finds it due
      -- again.
      rcases hset with hzero | hset
      · exact absurd (hscope ▸ hzero) hn
      · exact hset.past now r
    · obtain ⟨hlast, hrow⟩ := h.lasting x s hs hn
      refine ⟨hlasting _ hlast, hrow.imp_right ?_⟩
      rintro ⟨u, hu⟩
      refine ⟨u, ?_⟩
      rw [Function.update_of_ne]
      · exact hu
      · rintro rfl
        rw [hg] at hu
        exact ‹x ≠ d.id› hu.symm

theorem Flight.rotate (h : Flight sp co w n g) (hg : g t = .claimed d true) {bundle : TokenBundle}
    {e : Time} (hb : sp.limit < bundle.expiresAt) (cid : Uuid) :
    Flight sp co ((w.withdraw (d.scope co)).store (d.scope co) purposeOauthToken bundle e)
      (fun scope => n scope + if scope = d.scope co then 1 else 0)
      (Function.update g t (.rotated d)) := by
  have hfit := h.fits t
  rw [hg] at hfit
  obtain ⟨hd, hw, hzero⟩ := hfit
  have hzero : n (d.scope co) = 0 := hzero rfl
  obtain ⟨r, hr, hact, hdue⟩ := hd.row
  have hscope : r.scope co = d.scope co := by rw [hdue]; rfl
  have hch : Hub.Change t w (.rotate (d.scope co) bundle e) (.ok cid)
    ((w.withdraw (d.scope co)).store (d.scope co) purposeOauthToken bundle e) := .rotate
  refine ⟨h.clock, h.fits_step hch ⟨⟨hd.holder, hd.row⟩, hw⟩ ?_, fun scope => ?_, h.unique, ?_⟩
  · intro u d' hu hd'
    -- Two claimed accounts with one scope would be one row, and a row has one holder.
    have hne : d'.scope co ≠ d.scope co := by
      intro heq
      obtain ⟨r', hr', -, hdue'⟩ := hd'.row
      have hscope' : r'.scope co = d'.scope co := by rw [hdue']; rfl
      have hid : d'.id = d.id :=
        h.unique _ _ r' r hr' hr (scope_eq_iff.mp (hscope'.trans (heq.trans hscope.symm)))
      have hholder := hd'.holder
      rw [hid, hd.holder] at hholder
      exact hu (Option.some.inj hholder).symm
    rw [if_neg hne, Nat.add_zero]
  · split
    · subst_vars
      rw [hzero]
    · exact h.once scope
  · intro x s hs hn
    by_cases hx : s.scope co = d.scope co
    · have hid : x = d.id := h.unique _ _ s r hs hr (scope_eq_iff.mp (hx.trans hscope.symm))
      refine ⟨⟨⟨d.scope co, purposeOauthToken, bundle, e, true⟩, ?_, hb⟩, .inr ⟨t, ?_⟩⟩
      · rw [hx]
        exact Hub.current_store ..
      · rw [Function.update_self]
        exact hid.symm
    · rw [if_neg hx, Nat.add_zero] at hn
      obtain ⟨⟨c, hc, he⟩, hrow⟩ := h.lasting x s hs hn
      refine ⟨⟨c, ?_, he⟩, hrow.imp_right ?_⟩
      · rw [Hub.current_store_ne (Ne.symm hx), Hub.current_withdraw_ne hx]
        exact hc
      · rintro ⟨u, hu⟩
        refine ⟨u, ?_⟩
        rw [Function.update_of_ne]
        · exact hu
        · rintro rfl
          rw [hg] at hu
          exact hu

/-- An account that a sweep finds due was not rotated before. -/
theorem Flight.first_of_due (h : Flight sp co w n g) (hg : g t = .opened) {window : Int}
    {attempted : List Uuid} (hwindow : window ≤ sp.window) {r : Account} {id : Uuid}
    (hr : w.accounts.lookup id = some r) (hdue : w.Due t window attempted id r) :
    n (r.scope co) = 0 := by
  by_contra hn
  obtain ⟨hact, ⟨x, hx, hlt⟩, -, hfree⟩ := hdue
  have hfit := h.fits t
  rw [hg] at hfit
  obtain ⟨-, hrow⟩ := h.lasting id r hr hn
  rcases hrow with hpast | ⟨u, hu⟩
  · obtain ⟨e, he, hlimit⟩ := hpast hact
    obtain rfl : x = e := Option.some.inj ((Option.mem_def.mp hx).symm.trans he)
    have hmono : window * microsPerSecond ≤ sp.window * microsPerSecond :=
      Int.mul_le_mul_of_nonneg_right hwindow (by decide)
    have hle : w.began t + window * microsPerSecond ≤ sp.limit := Int.add_le_add hfit.2 hmono
    exact absurd (Int.lt_of_lt_of_le hlt hle) (Int.not_lt.mpr (Int.le_of_lt hlimit))
  · have hheld := (h.fits u).held hu
    rcases hfree with hnone | hself
    · rw [hnone] at hheld
      cases hheld
    · rw [hself] at hheld
      obtain rfl := Option.some.inj hheld
      rw [hg] at hu
      exact hu

/-! ## Every operation -/

theorem ClaimedUpdate.guard_active (v : ClaimedUpdate) : v.guard .active := by
  cases v <;> rfl

theorem Held.updateTx (h : Held w t d) {v : ClaimedUpdate} {m : Nat}
    (hn : Hub.next t (.updateTx d.id v) (.ok m) w = some w') :
    m = 1 ∧ w' = (w.lock t d.id).queue t (.update d.id v (w.began t)) := by
  obtain ⟨r, hr, hact, -⟩ := h.row
  have htarget : w.claimedTarget d.id v = some r :=
    Hub.claimedTarget_eq_some.mpr ⟨hr, by rw [hact]; exact v.guard_active⟩
  simp only [Hub.next, htarget, Option.ite_none_right_eq_some, Option.some.injEq] at hn
  exact ⟨hn.1.1, hn.2.symm⟩

theorem Flight.updateTx (h : Flight sp co w n g) {v : ClaimedUpdate} {m : Nat} (hd : Held w t d)
    (hw : w.txs.writes t = []) (hset : n (d.scope co) = 0 ∨ sp.Settles v)
    (hp : ∀ id, (g t).Pending id → d.id = id)
    (hn : Hub.next t (.updateTx d.id v) (.ok m) w = some w') :
    m = 1 ∧ Flight sp co w' n (Function.update g t (.settled d)) := by
  have hch := Hub.next_change hn
  obtain ⟨rfl, rfl⟩ := hd.updateTx hn
  refine ⟨rfl, h.still hch rfl rfl rfl ⟨⟨?_, hd.row⟩, v, w.began t, ?_, hset⟩ hp⟩
  · simp [Txs.lock_holder]
  · simp [hw]

end

section

variable {lib : Crates} {svc : IntegrationsOauthService} {sp : Span} {co : Uuid}

/-- Counts the rotations of the history. -/
def Counted (sp : Span) (co : Uuid) (w : Hub) (hist : List (Label (system lib svc)))
    (g : Tid → Stage) : Prop :=
  Flight sp co w (rotations · hist) g

theorem rotations_cons (scope : CredentialScope) (l : Label (system lib svc))
    (hist : List (Label (system lib svc))) :
    rotations scope (l :: hist) = rotations scope hist + if rotated? l = some scope then 1 else 0 := by
  simp [rotations, List.countP_cons]

theorem Counted.same {w : Hub} {hist : List (Label (system lib svc))} {g : Tid → Stage}
    {l : Label (system lib svc)} (hl : rotated? l = none)
    (h : Flight sp co w (rotations · hist) g) : Counted sp co w (l :: hist) g := by
  have : (rotations · (l :: hist)) = (rotations · hist) := by
    funext scope
    rw [rotations_cons, hl, if_neg nofun, Nat.add_zero]
  rw [Counted, this]
  exact h

variable {cfg : Config (system lib svc)} {t : Tid} {op : Op} {ans : Ans op} {w' : Hub}
  {g : Tid → Stage}

theorem Counted.goes {s : Stage} (ha : Answered op ans) (hs : Stage.next sp (g t) op ans s)
    (hl : rotated? (.op t op ans : Label (system lib svc)) = none)
    (h : Flight sp co w' (rotations · cfg.hist) (Function.update g t s)) :
    ∃ s, (Stage.contract sp co).may (g t) op ans s ∧
      Counted sp co w' (.op t op ans :: cfg.hist) (Function.update g t s) :=
  ⟨s, ⟨ha, hs⟩, .same hl h⟩

theorem Counted.stays (h : Counted sp co cfg.world cfg.hist g) (ha : Answered op ans)
    (hs : Stage.next sp (g t) op ans (g t))
    (hl : rotated? (.op t op ans : Label (system lib svc)) = none) :
    ∃ s, (Stage.contract sp co).may (g t) op ans s ∧
      Counted sp co cfg.world (.op t op ans :: cfg.hist) (Function.update g t s) := by
  refine Counted.goes ha hs hl ?_
  rw [Function.update_eq_self]
  exact h

theorem counted_claimed {d : DueAccount} {s : Stage} (h : Counted sp co cfg.world cfg.hist g)
    (hg : g t = .opened) (hch : Hub.Change t cfg.world op ans (cfg.world.lock t d.id))
    (hrow : ∃ r, cfg.world.accounts.lookup d.id = some r ∧ r.status = .active ∧ d = r.toDue d.id)
    {first : Bool} (hs : s = .claimed d first)
    (hfirst : first → rotations (d.scope co) cfg.hist = 0) :
    Flight sp co (cfg.world.lock t d.id) (rotations · cfg.hist) (Function.update g t s) := by
  have hfit := h.fits t
  rw [hg] at hfit
  subst hs
  refine Flight.still h hch rfl rfl rfl ⟨⟨?_, hrow⟩, hfit.1, hfirst⟩ ?_
  · simp [Txs.lock_holder]
  · rw [hg]
    exact fun _ => False.elim

theorem counted_op (hok : sp.Allows co cfg (.op t op ans))
    (hn : Hub.next t op ans cfg.world = some w') (hm : Stage.must sp co (g t) op)
    (h : Counted sp co cfg.world cfg.hist g) :
    ∃ s, (Stage.contract sp co).may (g t) op ans s ∧
      Counted sp co w' (.op t op ans :: cfg.hist) (Function.update g t s) := by
  obtain ⟨⟨ha, hstore⟩, hlast⟩ := hok
  have hfit := h.fits t
  have hch := Hub.next_change hn
  cases op with
  | utcNow =>
    simp only [Hub.next, Option.ite_none_right_eq_some, Option.some.injEq] at hn
    obtain ⟨rfl, rfl⟩ := hn
    exact h.stays ha ⟨h.clock.1, h.clock.2, rfl⟩ rfl
  | panic => cases ans
  | fetchAccount id =>
    rcases ans with e | r
    · cases ha
    · simp only [Hub.next, Option.ite_none_right_eq_some, Option.some.injEq] at hn
      obtain ⟨-, rfl⟩ := hn
      exact h.stays ha rfl rfl
  | exchange endpoint form =>
    cases hn
    exact h.stays ha ⟨hlast, rfl⟩ rfl
  | begin =>
    rcases ans with e | ⟨⟩
    · cases ha
    cases hn
    have hg : g t = .free := hm
    rw [hg] at hfit
    refine Counted.goes ha rfl rfl (h.still hch rfl rfl rfl ⟨hfit, ?_⟩ ?_)
    · change Function.update (Hub.began cfg.world) t (Hub.clock cfg.world) t ≤ sp.stop
      rw [Function.update_self]
      exact h.clock.2
    · rw [hg]
      exact fun _ => False.elim
  | claimDue window attempted =>
    obtain ⟨hg, hwindow⟩ := hm
    rcases ans with e | _ | d
    · cases ha
    · simp only [Hub.next, Option.ite_none_right_eq_some, Option.some.injEq] at hn
      obtain ⟨-, rfl⟩ := hn
      exact h.stays ha rfl rfl
    · cases hch with
      | quiet hq => exact hq.elim
      | claimDue hr hd hdue hs =>
        refine Counted.goes ha rfl rfl (counted_claimed h hg (.claimDue hr hd hdue hs)
          ⟨_, hr, hdue.1, hd⟩ rfl fun _ => ?_)
        have hzero := h.first_of_due hg hwindow hr hdue
        rw [hd]
        exact hzero
  | claimById id =>
    have hg : g t = .opened := hm
    rcases ans with e | _ | d
    · cases ha
    · have hw : w' = cfg.world := by
        simp only [Hub.next] at hn
        split at hn
        · split at hn
          · cases hn
          · exact (Option.some.inj hn).symm
        · exact (Option.some.inj hn).symm
      subst hw
      exact h.stays ha rfl rfl
    · cases hch with
      | quiet hq => exact hq.elim
      | claimById hr hd hact hfree =>
        have hid : d.id = id := by rw [hd]; rfl
        subst hid
        exact Counted.goes ha rfl rfl (counted_claimed h hg (.claimById hr hd hact hfree)
          ⟨_, hr, hact, hd⟩ rfl (by rintro ⟨⟩))
  | readToken scope =>
    obtain ⟨d, first, hg, rfl⟩ := hm
    cases hn
    rcases ans with f | b
    · exact h.stays ha rfl rfl
    rw [hg] at hfit
    obtain ⟨hd, hw, -⟩ := hfit
    -- Where the bundle has been replaced already, what the call reads outlasts the span.
    by_cases hzero : rotations (d.scope co) cfg.hist = 0
    · refine Counted.goes ha ⟨d, first, hg, .inl rfl⟩ rfl
        (h.still hch rfl rfl rfl ⟨hd, hw, fun _ => hzero⟩ ?_)
      rw [hg]
      exact fun _ => False.elim
    · obtain ⟨r, hr, -, hdue⟩ := hd.row
      have hscope : r.scope co = d.scope co := by rw [hdue]; rfl
      obtain ⟨⟨c, hc, hlimit⟩, -⟩ := h.lasting _ r hr (hscope ▸ hzero)
      rw [hscope] at hc
      simp only [Hub.StoreOk, hc, Option.any_some, beq_iff_eq] at hstore
      subst hstore
      exact h.stays ha ⟨d, first, hg, .inr ⟨rfl, hlimit⟩⟩ rfl
  | rotate scope bundle e =>
    obtain ⟨d, hg, rfl, hb⟩ := hm
    rcases ans with f | cid
    · cases hn
      exact h.stays ha rfl rfl
    · cases hn
      refine ⟨.rotated d, ⟨ha, d, hg, rfl⟩, ?_⟩
      have hcount : (rotations · (Label.op t (.rotate (d.scope co) bundle e) (.ok cid) ::
          cfg.hist : List (Label (system lib svc)))) =
          fun scope => rotations scope cfg.hist + if scope = d.scope co then 1 else 0 := by
        funext scope
        rw [rotations_cons]
        simp [rotated?, eq_comm]
      rw [Counted, hcount]
      exact h.rotate hg hb cid
  | updateTx id v =>
    rcases ans with e | m
    · cases ha
    obtain ⟨d, rfl, hg⟩ := hm
    have hready : Held cfg.world t d ∧ cfg.world.txs.writes t = [] ∧
        (rotations (d.scope co) cfg.hist = 0 ∨ sp.Settles v) ∧
        ∀ id, (g t).Pending id → d.id = id := by
      rcases hg with hg | ⟨hset, ⟨first, hg⟩ | hg⟩
      · rw [hg] at hfit ⊢
        exact ⟨hfit.1, hfit.2.1, .inl (hfit.2.2 rfl), fun _ => False.elim⟩
      · rw [hg] at hfit ⊢
        exact ⟨hfit.1, hfit.2.1, .inr hset, fun _ => False.elim⟩
      · rw [hg] at hfit ⊢
        exact ⟨hfit.1, hfit.2, .inr hset, fun _ => id⟩
    obtain ⟨hd, hw, hset, hp⟩ := hready
    obtain ⟨rfl, hflight⟩ := h.updateTx hd hw hset hp hn
    exact Counted.goes ha ⟨rfl, d, rfl, rfl⟩ rfl hflight
  | commit =>
    rcases ans with e | ⟨⟩
    · cases ha
    cases hn
    rcases hm with hg | ⟨d, hg⟩
    · rw [hg] at hfit
      refine Counted.goes ha rfl rfl (h.still hch ?_ ?_ ?_ ?_ ?_)
      · rw [Hub.commit_accounts, hfit.1]
        rfl
      · exact Hub.commit_credentials ..
      · exact Hub.commit_clock ..
      · exact Txs.clear_writes_self
      · rw [hg]
        exact fun _ => False.elim
    · exact Counted.goes ha rfl rfl (h.committed hg)
  | rollback =>
    rcases ans with e | ⟨⟩
    · cases ha
    cases hn
    refine Counted.goes ha rfl rfl (h.still hch rfl rfl rfl Txs.clear_writes_self ?_)
    rcases hm with hg | ⟨d, first, hg⟩
    · rw [hg]
      exact fun _ => False.elim
    · rw [hg]
      exact fun _ => False.elim
  | _ => exact hm.elim

theorem counted_finish (hends : (g t).Ends) (h : Counted sp co cfg.world cfg.hist g) :
    Counted sp co (Hub.release cfg.world t) (.finish t :: cfg.hist) (Function.update g t .free) := by
  refine .same rfl (h.still (.rollback) rfl rfl rfl Txs.clear_writes_self ?_)
  cases hg : g t with
  | free => exact fun _ => id
  | claimed d first => exact fun _ => False.elim
  | opened | rotated d | settled d =>
    rw [hg] at hends
    exact hends.elim

theorem counted_env {e : Env} (hok : sp.Allows co cfg (.env e))
    (hw : Hub.env e cfg.world = some w') (h : Counted sp co cfg.world cfg.hist g) :
    Counted sp co w' (.env e :: cfg.hist) g := by
  refine .same rfl ?_
  have hfits : ∀ u, Apart cfg.world w' u → (g u).Fits sp co w' (rotations · cfg.hist) u :=
    fun u ha => (h.fits u).apart ha fun _ _ => rfl
  cases e with
  | tick clock =>
    simp only [Hub.env, Option.ite_none_right_eq_some, Option.some.injEq] at hw
    obtain ⟨hle, rfl⟩ := hw
    exact ⟨⟨Int.le_trans h.clock.1 hle, hok⟩, fun u => hfits u ⟨id, fun _ => rfl, rfl, rfl⟩, h.once,
      h.unique, h.lasting⟩
  | kill token =>
    cases hw
    exact ⟨h.clock, fun u => hfits u ⟨id, fun _ => rfl, rfl, rfl⟩, h.once, h.unique, h.lasting⟩

theorem counted_ghosts : Ghosts (system lib svc) (sp.Allows co) (Stage.contract sp co) .free Stage.Ends
    (Counted sp co) where
  start hc _ h := ⟨call_flight hc, .same rfl h⟩
  op hok hn hm h := counted_op hok hn hm h
  finish hends h := counted_finish hends h
  env hok hw h := counted_env hok hw h
  crash hok := hok

/-- The hub at the start of the span: no transaction has written, and an account has one row. The last
is the composing service's part: its tenancy decorator installs a unique on the provider and the
`account_ref` per org unit. The module itself, which is tenant-agnostic, declares no such index. -/
structure Span.Starts (sp : Span) (w : Hub) : Prop where
  clock : sp.start ≤ w.clock ∧ w.clock ≤ sp.stop
  writes : ∀ t, w.txs.writes t = []
  unique : ∀ id id' r r', w.accounts.lookup id = some r → w.accounts.lookup id' = some r' →
    r.key = r'.key → id = id'

/-- **Single flight.** However sweeps and lazy refreshes interleave, in a span that is shorter than what
a token outlasts the window by, each credential is rotated at most once. -/
theorem single_flight {init : Hub → Prop} (hinit : ∀ w, init w → sp.Starts w)
    (hr : Reach (system lib svc) init (sp.Allows co) cfg) (scope : CredentialScope) :
    rotations scope cfg.hist ≤ 1 := by
  have hstart : ∀ w, init w → Counted sp co w ([] : List (Label (system lib svc))) fun _ => .free := by
    intro w hw
    obtain ⟨hclock, hwrites, hunique⟩ := hinit w hw
    exact ⟨hclock, hwrites, fun _ => Nat.zero_le _, hunique, fun _ _ _ hn => absurd rfl hn⟩
  obtain ⟨g, -, h⟩ := counted_ghosts.reach hstart hr
  exact h.once scope

end

/-! ## Three refreshes of one account -/

def flightSpan : Span := ⟨600, 3300000000, 3400000000⟩

def flightHub : Hub := { dueStored with txs := .empty }

/-- A sweep of the job finds the row locked by `refresh_due`, and a lazy refresh that saw the account
due finds the new bundle. -/
def flightRun : List (Label (system mailCrates mailService)) :=
  [.start 0 (.refreshDue 9), .start 1 (.refreshOauthCredentials mailJob 9),
    .start 2 (.ensureFresh 9 1),
    .op 2 (.fetchAccount 1)
      (.ok (some ⟨1, "gmail", "user@example.com", .active, "", some 3600000000, none⟩)),
    .op 2 .utcNow (3300000000 : Int),
    .op 0 .begin (.ok ()), .op 0 (.claimDue 600 []) (.ok (some dueAccount)),
    .op 1 .begin (.ok ()), .op 1 (.claimDue 600 []) (.ok none), .op 1 .rollback (.ok ()), .finish 1,
    .op 0 (.readToken mailScope) (.ok mailBundle), .op 0 .utcNow (3300000000 : Int),
    .op 0 (.exchange gmailToken mailRefreshForm) (.ok mailResponse),
    .op 0 .utcNow (3300000000 : Int),
    .op 0 (.rotate mailScope mailRotated 6900000000) (.ok (78 : Nat)),
    .op 0 (.updateTx 1 (.mirror 6900000000 gmailAdapter.defaultScopes 3300000000)) (.ok (1 : Nat)),
    .op 0 .commit (.ok ()), .op 0 .begin (.ok ()), .op 0 (.claimDue 600 []) (.ok none),
    .op 0 .commit (.ok ()), .finish 0,
    .op 2 .begin (.ok ()), .op 2 (.claimById 1) (.ok (some dueAccount)),
    .op 2 (.readToken mailScope) (.ok mailRotated), .op 2 .utcNow (3300000000 : Int),
    .op 2 (.updateTx 1 (.resync 6900000000)) (.ok (1 : Nat)), .op 2 .commit (.ok ()),
    .op 2 (.fetchAccount 1) (.ok (some ⟨1, "gmail", "user@example.com", .active,
      gmailAdapter.defaultScopes, some 6900000000, some 3300000000⟩)), .finish 2]

theorem flightRun_runs : (replay (flightSpan.Allows 9) (.init flightHub) flightRun).isSome := by
  decide +kernel

theorem flightHub_row {id : Uuid} {r : Account} (h : flightHub.accounts.lookup id = some r) :
    id = 1 ∧ r = ⟨"gmail", "user@example.com", .active, "", none, some 3600000000, none⟩ := by
  have hm : (⟨id, r⟩ : Σ _ : Uuid, Account) ∈
      [⟨1, "gmail", "user@example.com", .active, "", none, some 3600000000, none⟩] :=
    AList.mem_lookup_iff.mp h
  simpa using hm

theorem flightHub_starts : flightSpan.Starts flightHub where
  clock := by decide
  writes _ := rfl
  unique id id' r r' hr hr' _ := by rw [(flightHub_row hr).1, (flightHub_row hr').1]

theorem single_flight_mailbox : ∃ cfg : Config (system mailCrates mailService),
    cfg.hist = flightRun.reverse ∧ rotations mailScope cfg.hist ≤ 1 := by
  obtain ⟨cfg, hcfg⟩ := Option.isSome_iff_exists.mp flightRun_runs
  have hr : Reach (system mailCrates mailService) (· = flightHub) (flightSpan.Allows 9) cfg :=
    .replay (.init rfl) hcfg
  refine ⟨cfg, by simpa using replay_hist hcfg, ?_⟩
  exact single_flight (fun w hw => hw ▸ flightHub_starts) hr mailScope

/-! ## Two rows of one account -/

def dueRow : Account := ⟨"gmail", "user@example.com", .active, "", none, some 3600000000, none⟩

/-- What two overlapping authorizations leave behind where no index forbids it. -/
def pairHub : Hub := { flightHub with accounts := (AList.singleton 1 dueRow).insert 2 dueRow }

def pairedAccount : DueAccount := ⟨2, "gmail", "user@example.com"⟩

/-- `SKIP LOCKED` gives the second sweep the other row, which has the same credential. -/
def pairRun : List (Label (system mailCrates mailService)) :=
  [.start 0 (.refreshDue 9), .start 1 (.refreshDue 9),
    .op 0 .begin (.ok ()), .op 0 (.claimDue 600 []) (.ok (some dueAccount)),
    .op 1 .begin (.ok ()), .op 1 (.claimDue 600 []) (.ok (some pairedAccount)),
    .op 0 (.readToken mailScope) (.ok mailBundle), .op 0 .utcNow (3300000000 : Int),
    .op 1 (.readToken mailScope) (.ok mailBundle), .op 1 .utcNow (3300000000 : Int),
    .op 0 (.exchange gmailToken mailRefreshForm) (.ok mailResponse), .op 0 .utcNow (3300000000 : Int),
    .op 0 (.rotate mailScope mailRotated 6900000000) (.ok (78 : Nat)),
    .op 1 (.exchange gmailToken mailRefreshForm) (.ok mailResponse), .op 1 .utcNow (3300000000 : Int),
    .op 1 (.rotate mailScope mailRotated 6900000000) (.ok (79 : Nat))]

theorem pairRun_runs : (replay (flightSpan.Allows 9) (.init pairHub) pairRun).isSome := by
  decide +kernel

theorem pairHub_row {id : Uuid} {r : Account} (h : pairHub.accounts.lookup id = some r) : r = dueRow := by
  have hm : (⟨id, r⟩ : Σ _ : Uuid, Account) ∈ [⟨2, dueRow⟩, ⟨1, dueRow⟩] := AList.mem_lookup_iff.mp h
  simp only [List.mem_cons, Sigma.mk.injEq, List.not_mem_nil, or_false] at hm
  rcases hm with ⟨-, heq⟩ | ⟨-, heq⟩
  · exact eq_of_heq heq
  · exact eq_of_heq heq

/-! Without the unique the span is no bound: two sweeps rotate the credential that two rows share. -/

theorem pair_rotated_twice :
    (flightSpan.start ≤ pairHub.clock ∧ pairHub.clock ≤ flightSpan.stop) ∧
      (∀ t, pairHub.txs.writes t = []) ∧
      (∀ id r, pairHub.accounts.lookup id = some r →
        ∃ c, pairHub.current (r.scope 9) = some c ∧ r.expiresAt = some c.bundle.expiresAt) ∧
      ∃ cfg : Config (system mailCrates mailService),
        Reach (system mailCrates mailService) (· = pairHub) (flightSpan.Allows 9) cfg ∧
          rotations mailScope cfg.hist = 2 := by
  refine ⟨by decide, fun _ => rfl, ?_, ?_⟩
  · intro id r hr
    rw [pairHub_row hr]
    exact ⟨⟨mailScope, purposeOauthToken, mailBundle, 3600000000, true⟩, rfl, rfl⟩
  · obtain ⟨cfg, hcfg⟩ := Option.isSome_iff_exists.mp pairRun_runs
    have hh : cfg.hist = pairRun.reverse := by simpa using replay_hist hcfg
    refine ⟨cfg, .replay (.init rfl) hcfg, ?_⟩
    rw [hh]
    decide +kernel

end BackboneIntegrations.OAuth
