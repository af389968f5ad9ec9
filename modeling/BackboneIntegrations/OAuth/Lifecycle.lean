import BackboneIntegrations.OAuth.Gauntlet
import BackboneIntegrations.OAuth.Locks

/-!
# The lifecycle of an account

The status of a row moves along four edges. A row that is new has an id that no row had
before, and only a re-authorization deletes one.
-/

open Interleave

namespace BackboneIntegrations.OAuth

open IntegrationsOauthService

variable {lib : Crates} {svc : IntegrationsOauthService} {w₀ : Hub}
  {ok : Config (system lib svc) → Label (system lib svc) → Prop} {cfg cfg' : Config (system lib svc)}

/-! ## Open writes were asked for -/

/-- The operation that queued a write, with its answer. -/
def Write.Asked (cfg : Config (system lib svc)) (t : Tid) : Write → Prop
  | .delete id => cfg.Did t (.deleteRow id) (.ok 1)
  | .insert row => cfg.Did t (.insertAccount row) (.ok ())
  | .update id u _ => cfg.Did t (.updateTx id u) (.ok 1)

theorem Write.Asked.step {l : Label (system lib svc)} {t : Tid} {wr : Write} (h : wr.Asked cfg t)
    (hs : Step (system lib svc) cfg l cfg') : wr.Asked cfg' t := by
  cases wr <;> exact hs.did.mpr (.inr h)

theorem asked_of_writes (hr : Reach (system lib svc) (· = w₀) ok cfg) (h₀ : w₀.Idle) {t : Tid}
    {wr : Write} (hm : wr ∈ (Hub.txs cfg.world).writes t) : wr.Asked cfg t := by
  induction hr with
  | init h =>
    subst h
    rw [Config.init_world, h₀.txs] at hm
    cases hm
  | @step cfg l cfg' h _ hs ih =>
    by_cases hl : ∃ u op ans, l = .op u op ans
    · obtain ⟨u, op, ans, rfl⟩ := hl
      rcases (step_change hs).mem_writes hm with ⟨hm, -⟩ | ⟨rfl, hq⟩
      · exact (ih hm).step hs
      · cases hq <;> exact hs.did.mpr (.inl rfl)
    · push Not at hl
      exact (ih ((step_beside hs hl).writes hm).1).step hs

theorem delete_asked (hr : Reach (system lib svc) (· = w₀) ok cfg) (h₀ : w₀.Idle) {t : Tid} {id : Uuid}
    (hm : .delete id ∈ (Hub.txs cfg.world).writes t) :
    ∃ req, cfg.call? t = some (.authorize req) := by
  have hX := script_holds lib svc
  have hd : cfg.Did t (.deleteRow id) (.ok 1) := asked_of_writes hr h₀ hm
  obtain ⟨c, hc⟩ := hX.call_of_did hr hd
  obtain ⟨pre, -, hmust⟩ := hX.past hr hc hd
  cases c with
  | authorize req => exact ⟨req, hc⟩
  | _ => exact hmust.elim

theorem insert_row (hr : Reach (system lib svc) (· = w₀) ok cfg) (h₀ : w₀.Idle) {t : Tid}
    {row : NewAccount} (hm : .insert row ∈ (Hub.txs cfg.world).writes t) :
    ∃ req a, cfg.call? t = some (.authorize req) ∧ svc.admitRequest lib req = .ok a ∧ a.Row row := by
  have hX := script_holds lib svc
  have hd : cfg.Did t (.insertAccount row) (.ok ()) := asked_of_writes hr h₀ hm
  obtain ⟨c, hc⟩ := hX.call_of_did hr hd
  obtain ⟨pre, -, hmust⟩ := hX.past hr hc hd
  cases c with
  | authorize req =>
    obtain ⟨⟨a, ha, hrow⟩, -⟩ := hmust
    exact ⟨req, a, hc, ha, hrow⟩
  | _ => exact hmust.elim

/-! ## The edges -/

inductive Edge : IntegrationAccountStatus → IntegrationAccountStatus → Prop
  | activate : Edge .pending .active
  | revokePending : Edge .pending .revoked
  | expire : Edge .active .expired
  | revokeActive : Edge .active .revoked

/-- What a step does to the row of an id, after the steps in `older`. -/
inductive RowStep (older : List (Taken (system lib svc))) (s : Taken (system lib svc)) (id : Uuid) : Prop
  | kept (h : Hub.status? s.after.world id = Hub.status? s.before.world id)
  | moved {a b} (hb : Hub.status? s.before.world id = some a)
    (ha : Hub.status? s.after.world id = some b) (he : Edge a b)
  | deleted {t req} (hl : s.label = .op t .commit (.ok ()))
    (hc : s.before.call? t = some (.authorize req)) (ha : Hub.status? s.after.world id = none)
  | inserted {t req} (hl : s.label = .op t .commit (.ok ()))
    (hc : s.before.call? t = some (.authorize req))
    (hnew : ∀ s' ∈ s :: older, Hub.status? s'.before.world id = none)
    (ha : Hub.status? s.after.world id = some .pending)

theorem edge_of_update {u : StatusUpdate} {r : Account} (h : u.guard r.status) :
    Edge r.status (u.set r).status := by
  cases u with
  | activate scopes expiresAt now =>
    have hp : r.status = .pending := by simpa [StatusUpdate.guard] using h
    rw [hp]
    exact .activate
  | revoke =>
    have hp : r.status = .pending ∨ r.status = .active := by simpa [StatusUpdate.guard] using h
    rcases hp with hp | hp <;> rw [hp]
    · exact .revokePending
    · exact .revokeActive

theorem Hub.commit_status {w : Hub} {t : Tid} (id : Uuid)
    (hins : ∀ row, .insert row ∈ w.txs.writes t → w.status? row.id = none)
    (hupd : ∀ id u now, .update id u now ∈ w.txs.writes t → w.status? id = some .active) :
    (w.commit t).status? id = w.status? id ∨
    (w.status? id = some .active ∧ (w.commit t).status? id = some .expired) ∨
    (.delete id ∈ w.txs.writes t ∧ (w.commit t).status? id = none) ∨
    (∃ row : NewAccount, row.id = id ∧ .insert row ∈ w.txs.writes t ∧ w.status? id = none ∧
      (w.commit t).status? id = some .pending) := by
  cases hr : w.accounts.lookup id with
  | some r =>
    have hs : w.status? id = some r.status := status?_eq_some.mpr ⟨r, hr, rfl⟩
    have hne : ∀ row, .insert row ∈ w.txs.writes t → row.id ≠ id := by
      rintro row hm rfl
      rw [hins row hm] at hs
      cases hs
    have hw := foldl_rewritten hr hne
    generalize ho : ((w.txs.writes t).foldl apply w).accounts.lookup id = o at hw
    have hafter : (w.commit t).status? id = o.map (·.status) := by
      rw [status?, commit_accounts, ho]
    rw [hafter]
    -- A row that is there is deleted, kept or ended by the writes.
    cases hw with
    | deleted h => exact .inr (.inr (.inl ⟨h, rfl⟩))
    | kept hk hs' =>
      left
      rw [Option.map_some, hs', hs]
    | expired hk hs' hu h =>
      right; left
      exact ⟨hupd _ _ _ h, by rw [Option.map_some, hs']⟩
  | none =>
    have hs : w.status? id = none := status?_eq_none.mpr hr
    cases ho : (w.commit t).accounts.lookup id with
    | none =>
      left
      rw [status?, status?, ho, hr]
    | some r =>
      -- Updates are of active rows, so a row that is not there can only be inserted.
      have hnoupd : ∀ u now, .update id u now ∉ w.txs.writes t := by
        intro u now hm
        rw [hupd _ _ _ hm] at hs
        cases hs
      obtain ⟨row, hid, hm, rfl⟩ := foldl_lookup_new hr hnoupd ho
      exact .inr (.inr (.inr ⟨row, hid, hm, hs, by rw [status?, ho]; rfl⟩))

theorem status_op (h₀ : w₀.Idle) (hr : Reach (system lib svc) (· = w₀) ok cfg) {t : Tid} {op : Op}
    {ans : Ans op} (hs : Step (system lib svc) cfg (.op t op ans) cfg') (id : Uuid) :
    Hub.status? cfg'.world id = Hub.status? cfg.world id ∨
    (∃ a b, Hub.status? cfg.world id = some a ∧ Hub.status? cfg'.world id = some b ∧ Edge a b) ∨
    (⟨op, ans⟩ : Event Sig) = ⟨.commit, .ok ()⟩ ∧ (∃ req, cfg.call? t = some (.authorize req)) ∧
      (Hub.status? cfg'.world id = none ∨
        Hub.status? cfg.world id = none ∧ Hub.status? cfg'.world id = some .pending) := by
  have hminted := minted_of_reach h₀ hr
  have hlocked := locked_of_reach h₀ hr
  have hc := step_change hs
  generalize hw' : cfg'.world = w' at hc ⊢
  cases hc with
  | commit =>
    rcases Hub.commit_status id (fun row hm => hminted.absent hm) (fun _ _ _ hm => hlocked.active hm) with
      hkept | ⟨hb, ha⟩ | ⟨hm, ha⟩ | ⟨row, -, hm, hb, ha⟩
    · exact .inl hkept
    · exact .inr (.inl ⟨_, _, hb, ha, .expire⟩)
    · exact .inr (.inr ⟨rfl, delete_asked hr h₀ hm, .inl ha⟩)
    · obtain ⟨req, -, hcall, -⟩ := insert_row hr h₀ hm
      exact .inr (.inr ⟨rfl, ⟨req, hcall⟩, .inr ⟨hb, ha⟩⟩)
  | @update x u r hrow hfree =>
    obtain ⟨hrow, hg⟩ := Hub.statusTarget_eq_some.mp hrow
    by_cases hid : id = x
    · subst hid
      refine .inr (.inl ⟨_, _, Hub.status?_eq_some.mpr ⟨r, hrow, rfl⟩, ?_, edge_of_update hg⟩)
      simp [Hub.status?, Hub.setStatus]
    · left
      simp [Hub.status?, Hub.setStatus, AList.lookup_insert_ne hid]
  | _ => exact .inl rfl

/-! ## Ids that have had their row -/

/-- The row of the id has been inserted, or it was there from the start. -/
def Entered (w₀ : Hub) (cfg : Config (system lib svc)) (id : Uuid) : Prop :=
  w₀.status? id ≠ none ∨ ∃ t, cfg.Did t .newUuid id ∧ cfg.Did t .commit (.ok ())

theorem Entered.step {l : Label (system lib svc)} {id : Uuid} (h : Entered w₀ cfg id)
    (hs : Step (system lib svc) cfg l cfg') : Entered w₀ cfg' id := by
  rcases h with h | ⟨t, hid, hc⟩
  · exact .inl h
  · exact .inr ⟨t, hs.did.mpr (.inr hid), hs.did.mpr (.inr hc)⟩

theorem entered_later {newer older : List (Taken (system lib svc))} {s : Taken (system lib svc)}
    (hr : Run (system lib svc) (· = w₀) ok (newer ++ s :: older) cfg) {id : Uuid}
    (he : Entered w₀ s.before id) : Entered w₀ cfg id := by
  obtain ⟨-, -, hs⟩ := hr.split
  exact (hr.keeps (P := (Entered w₀ · id)) (he.step hs) fun _ _ hst h => h.step hst).1

theorem entered_of_status (h₀ : w₀.Idle) (hr : Reach (system lib svc) (· = w₀) ok cfg) {id : Uuid}
    (h : Hub.status? cfg.world id ≠ none) : Entered w₀ cfg id := (minted_of_reach h₀ hr).owned h

theorem Entered.not_inserted {id : Uuid} (h : Entered w₀ cfg id) (hm : Minted w₀ cfg) {t : Tid}
    {row : NewAccount} (hw : .insert row ∈ (Hub.txs cfg.world).writes t) : row.id ≠ id := by
  rintro rfl
  obtain ⟨hid, hc⟩ := hm.queued hw
  rcases h with h | ⟨u, hu, huc⟩
  · exact h (hm.fresh hid)
  · rw [hm.unique hu hid] at huc
    exact hc huc

theorem Entered.stays_none {id : Uuid} (he : Entered w₀ cfg id) (h₀ : w₀.Idle)
    (hr : Reach (system lib svc) (· = w₀) ok cfg) {t : Tid} {op : Op} {ans : Ans op}
    (hs : Step (system lib svc) cfg (.op t op ans) cfg') (hb : Hub.status? cfg.world id = none) :
    Hub.status? cfg'.world id = none := by
  by_contra ha
  have hc := step_change hs
  obtain ⟨-, row, hid, hm⟩ := hc.inserted hb ha
  exact he.not_inserted (minted_of_reach h₀ hr) hm hid

/-- The statuses that a row can have later. -/
def Follows (a b : Option IntegrationAccountStatus) : Prop :=
  b = none ∨ ∃ x ∈ a, ∃ y ∈ b, Relation.ReflTransGen Edge x y

theorem Follows.refl (a : Option IntegrationAccountStatus) : Follows a a := by
  cases a with
  | none => exact .inl rfl
  | some x => exact .inr ⟨x, rfl, x, rfl, .refl⟩

theorem Follows.trans {a b c : Option IntegrationAccountStatus} (h : Follows a b) (h' : Follows b c) :
    Follows a c := by
  rcases h' with rfl | ⟨y, hy, z, hz, hyz⟩
  · exact .inl rfl
  · rcases h with rfl | ⟨x, hx, y', hy', hxy⟩
    · cases hy
    · cases Option.mem_unique hy hy'
      exact .inr ⟨x, hx, z, hz, hxy.trans hyz⟩

theorem follows_step (h₀ : w₀.Idle) (hr : Reach (system lib svc) (· = w₀) ok cfg)
    {l : Label (system lib svc)} (hs : Step (system lib svc) cfg l cfg') {id : Uuid}
    (he : Entered w₀ cfg id) : Follows (Hub.status? cfg.world id) (Hub.status? cfg'.world id) := by
  by_cases hl : ∃ u op ans, l = .op u op ans
  · obtain ⟨u, op, ans, rfl⟩ := hl
    rcases status_op h₀ hr hs id with hk | ⟨a, b, hb, ha, hedge⟩ | ⟨-, -, ha | ⟨hb, ha⟩⟩
    · rw [hk]
      exact .refl _
    · exact .inr ⟨a, hb, b, ha, .single hedge⟩
    · exact .inl ha
    · exact .inl (he.stays_none h₀ hr hs hb)
  · push Not at hl
    rw [(step_beside hs hl).status?]
    exact .refl _

/-- In the rest of a run, the status of a row only moves forward. -/
theorem Run.follows (h₀ : w₀.Idle) {newer older : List (Taken (system lib svc))}
    {s : Taken (system lib svc)} (hr : Run (system lib svc) (· = w₀) ok (newer ++ s :: older) cfg)
    {id : Uuid} (he : Entered w₀ s.before id) :
    Follows (Hub.status? s.before.world id) (Hub.status? cfg.world id) ∧
      ∀ s' ∈ newer, Follows (Hub.status? s.before.world id) (Hub.status? s'.before.world id) := by
  obtain ⟨hold, hok, hs⟩ := hr.split
  let P (c : Config (system lib svc)) : Prop :=
    Entered w₀ c id ∧ Follows (Hub.status? s.before.world id) (Hub.status? c.world id)
  have hP : P s.after := ⟨he.step hs, follows_step h₀ hold.reach hs he⟩
  obtain ⟨hend, hall⟩ := hr.keeps hP fun hreach _ hstep ⟨he', hf⟩ =>
    ⟨he'.step hstep, hf.trans (follows_step h₀ hreach hstep he')⟩
  exact ⟨hend.2, fun s' hs' => (hall s' hs').1.2⟩

/-- A status that no edge leaves. -/
def IntegrationAccountStatus.Terminal (a : IntegrationAccountStatus) : Prop :=
  a = .expired ∨ a = .revoked

theorem Follows.of_terminal {a : IntegrationAccountStatus} (ha : a.Terminal)
    {b : Option IntegrationAccountStatus} (h : Follows (some a) b) : b = none ∨ b = some a := by
  rcases h with hb | ⟨x, hx, y, hy, hxy⟩
  · exact .inl hb
  · cases hx
    rcases hxy.cases_head with rfl | ⟨z, hedge, -⟩
    · exact .inr hy
    · rcases ha with rfl | rfl <;> cases hedge

/-- **The lifecycle of an account.** Each step of a run keeps the status of a row or moves it along an
edge, deletes the row for an `authorize`, or inserts a pending row under an id that no row had. A row
with a terminal status keeps it until it is deleted, and then there is no row with its id. -/
theorem account_lifecycle (h₀ : w₀.Idle) {newer older : List (Taken (system lib svc))}
    {s : Taken (system lib svc)} (hr : Run (system lib svc) (· = w₀) ok (newer ++ s :: older) cfg)
    (id : Uuid) :
    RowStep older s id ∧ ∀ a : IntegrationAccountStatus, Hub.status? s.before.world id = some a →
      a.Terminal → Hub.status? cfg.world id = none ∨ Hub.status? cfg.world id = some a := by
  obtain ⟨hold, hok, hs⟩ := hr.split
  constructor
  · by_cases hl : ∃ u op ans, s.label = .op u op ans
    · obtain ⟨u, op, ans, hl⟩ := hl
      rw [hl] at hs
      rcases status_op h₀ hold.reach hs id with hk | ⟨a, b, hb, ha, hedge⟩ | ⟨hev, ⟨req, hc⟩, hend⟩
      · exact .kept hk
      · exact .moved hb ha hedge
      · cases hev
        rcases hend with ha | ⟨hb, ha⟩
        · exact .deleted hl hc ha
        refine .inserted hl hc (List.forall_mem_cons.mpr ⟨hb, fun s' hs' => ?_⟩) ha
        by_contra hne
        obtain ⟨later, earlier, rfl⟩ := List.append_of_mem hs'
        obtain ⟨hold', -, -⟩ := hold.split
        -- An id that ever had a row never gets another one.
        have hentered := entered_later hold (entered_of_status h₀ hold'.reach hne)
        rw [hentered.stays_none h₀ hold.reach hs hb] at ha
        cases ha
    · push Not at hl
      exact .kept ((step_beside hs hl).status? id)
  · intro a ha hterm
    have hne : Hub.status? s.before.world id ≠ none := by simp [ha]
    have hf := (Run.follows h₀ hr (entered_of_status h₀ hold.reach hne)).1
    rw [ha] at hf
    exact hf.of_terminal hterm

theorem mailHub_row {id : Uuid} {r : Account} (h : r ∈ mailHub.accounts.lookup id) :
    id = 1 ∧ r = ⟨"gmail", "user@example.com", .pending, "", some "verifier", none, none⟩ := by
  have hm : (⟨id, r⟩ : Σ _ : Uuid, Account) ∈
      [⟨1, "gmail", "user@example.com", .pending, "", some "verifier", none, none⟩] :=
    AList.mem_lookup_iff.mp h
  simpa using hm

theorem mailHub_idle : mailHub.Idle where
  txs := rfl
  used := by
    intro id h
    obtain ⟨r, hr⟩ := Option.ne_none_iff_exists'.mp (mt Hub.status?_eq_none.mpr h)
    obtain ⟨rfl, -⟩ := mailHub_row hr
    exact List.mem_cons_self

theorem account_lifecycle_mailbox : ∃ (cfg : Config (system mailCrates mailService))
    (newer older : List (Taken (system mailCrates mailService)))
    (s : Taken (system mailCrates mailService)),
    cfg.hist = (newer ++ s :: older).map (·.label) ∧ s.label = .op 1 (.update 1 .revoke) (.ok 1) ∧
    RowStep older s 1 ∧
      ∀ a : IntegrationAccountStatus, Hub.status? s.before.world 1 = some a →
        a.Terminal → Hub.status? cfg.world 1 = none ∨ Hub.status? cfg.world 1 = some a := by
  obtain ⟨cfg, e, hr, hh, -⟩ := mailRace_reach
  obtain ⟨tr, htr⟩ := hr.run
  have hd : cfg.Did 1 (.update 1 .revoke) (.ok 1) := by simp [Config.Did, hh, mailRace]
  rw [Config.Did, htr.hist_eq] at hd
  obtain ⟨s, hs, hl⟩ := List.mem_map.mp hd
  obtain ⟨newer, older, rfl⟩ := List.append_of_mem hs
  exact ⟨cfg, newer, older, s, htr.hist_eq, hl, account_lifecycle mailHub_idle htr 1⟩

end BackboneIntegrations.OAuth
