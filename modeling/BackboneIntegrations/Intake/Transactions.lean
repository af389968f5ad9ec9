import BackboneIntegrations.Intake.Dedup

/-!
# Open transactions

What an open transaction holds is what its call has asked so far, and no other call can
change a row under it. So a claimed row stays `received` until its own call settles it.
-/

open Interleave

namespace BackboneIntegrations.Intake

variable {V : Type} {json : JsonCodec V} {init : Hub → Prop}
  {ok : Config (system json) → Label (system json) → Prop} {cfg cfg' : Config (system json)}

namespace Hub

/-- A hub between calls: the tables are keyed and no transaction is open. -/
structure Idle (w : Hub) : Prop where
  keyed : w.Keyed
  txs : w.txs = .empty

theorem idle_of_fresh {w : Hub} (h : w.Fresh) : w.Idle := ⟨keyed_of_fresh h, h.2.2⟩

/-- Every queued update holds the lock of its row, and the row still matches its `WHERE`. -/
structure Locked (w : Hub) : Prop where
  held : ∀ {t id u}, .update id u ∈ w.txs.writes t → w.txs.holder id = some t
  guarded : ∀ {t id u}, .update id u ∈ w.txs.writes t → w.status? id = some u.guard

theorem locked_of_idle {w : Hub} (h : w.Idle) : w.Locked := by
  constructor <;> simp [h.txs]

theorem apply_status?_ne (w : Hub) {x id : Uuid} (u : EventUpdate) (h : id ≠ x) :
    (w.apply (.update x u)).status? id = w.status? id := by
  simp [status?, apply_lookup, h]

theorem foldl_status?_ne {ws : List Write} {w : Hub} {id : Uuid}
    (h : ∀ u, .update id u ∉ ws) : (ws.foldl apply w).status? id = w.status? id := by
  induction ws generalizing w with
  | nil => rfl
  | cons wr ws ih =>
    rw [List.foldl_cons, ih fun u hu => h u (List.mem_cons_of_mem _ hu)]
    cases wr with
    | stage record => rfl
    | update x u =>
      refine apply_status?_ne w u ?_
      rintro rfl
      exact h u List.mem_cons_self

theorem commit_status?_ne {w : Hub} {t : Tid} {id : Uuid} (h : ∀ u, .update id u ∉ w.txs.writes t) :
    (w.commit t).status? id = w.status? id := foldl_status?_ne h

theorem status?_target {w : Hub} {id : Uuid} {u : EventUpdate} {row : EventRow}
    (h : w.target id u = some row) : w.status? id = some u.guard := by
  obtain ⟨hrow, hs⟩ := target_eq_some.mp h
  simp [status?, hrow, hs]

theorem insertEvent_status? (w : Hub) (e : NewEventRow) (id : Uuid) :
    (w.insertEvent e).status? id = if id = e.id then some .received else w.status? id := by
  simp only [status?, insertEvent_lookup]
  split <;> rfl

theorem status?_eq_none {w : Hub} {id : Uuid} : w.status? id = none ↔ w.events.lookup id = none := by
  simp [status?]

theorem Locked.clear {w : Hub} (h : w.Locked) (t : Tid) :
    Locked { w with txs := w.txs.clear t } := by
  constructor
  · intro v id u hu
    obtain ⟨hv, hu⟩ := Txs.mem_clear_writes.mp hu
    exact Txs.clear_holder_iff.mpr ⟨h.held hu, hv⟩
  · intro v id u hu
    exact h.guarded (Txs.mem_clear_writes.mp hu).2

theorem Locked.change {t : Tid} {op : Op V} {ans : Ans op} {w w' : Hub} (h : w.Locked)
    (hc : Change t w op ans w') : w'.Locked := by
  cases hc with
  | quiet hq => exact h
  | @insert e hk hid =>
    refine ⟨h.held, fun {v id u} hu => ?_⟩
    have hs := h.guarded hu
    rw [insertEvent_status?, if_neg, hs]
    rintro rfl
    rw [status?_eq_none.mpr hid] at hs
    cases hs
  | @queue id u row hrow hfree =>
    constructor
    · intro v id' u' hu'
      rw [Txs.push_holder, Txs.lock_holder]
      rcases Txs.mem_push_writes.mp hu' with hu' | ⟨rfl, heq⟩
      · split
        · subst_vars
          simpa [Txs.FreeFor, h.held hu', eq_comm] using hfree
        · exact h.held hu'
      · cases heq
        simp
    · intro v id' u' hu'
      rcases Txs.mem_push_writes.mp hu' with hu' | ⟨rfl, heq⟩
      · exact h.guarded hu'
      · cases heq
        exact status?_target hrow
  | @stage record =>
    have hold : ∀ {v id u}, .update id u ∈ (w.txs.push t (.stage record)).writes v →
        .update id u ∈ w.txs.writes v := by
      intro v id u hu
      simpa [Txs.mem_push_writes] using hu
    exact ⟨fun hu => h.held (hold hu), fun hu => h.guarded (hold hu)⟩
  | commit =>
    refine ⟨(h.clear t).held, fun {v id u} hu => ?_⟩
    rw [commit_status?_ne]
    · exact (h.clear t).guarded hu
    -- The row is locked by `v`, so `t` has nothing to write to it.
    · intro u' hu'
      obtain ⟨hv, hu⟩ := Txs.mem_clear_writes.mp hu
      exact hv (Option.some.inj ((h.held hu).symm.trans (h.held hu')))
  | rollback => exact h.clear t
  | @update id u row hrow hfree =>
    constructor
    · intro v id' u' hu'
      rw [apply_txs] at hu' ⊢
      exact h.held hu'
    · intro v id' u' hu'
      rw [apply_txs] at hu'
      have hheld := h.held hu'
      rw [apply_status?_ne]
      · exact h.guarded hu'
      · rintro rfl
        rw [hfree] at hheld
        cases hheld

/-! ## The writes of a call -/

theorem hold_quiet {op : Op V} {ans : Ans op} (hq : Quiet op ans) (ws : List Write) :
    hold ⟨op, ans⟩ ws = ws := by
  unfold hold
  split
  · rename_i heq
    cases heq
    exact if_pos hq
  · rename_i heq
    cases heq
    exact hq.elim
  · rename_i heq
    cases heq
    exact hq.elim
  · rename_i heq
    cases heq
    exact hq.elim
  · rfl

theorem writes_change {t : Tid} {op : Op V} {ans : Ans op} {w w' : Hub}
    (hc : Change t w op ans w') : w'.txs.writes t = hold ⟨op, ans⟩ (w.txs.writes t) := by
  cases hc with
  | quiet hq => rw [hold_quiet hq]
  | insert hk hid => rfl
  | queue hrow hfree | stage | commit | rollback => simp [hold]
  | update hrow hfree => simp [hold]

theorem writes_change_ne {t v : Tid} {op : Op V} {ans : Ans op} {w w' : Hub}
    (hc : Change t w op ans w') (hv : v ≠ t) : w'.txs.writes v = w.txs.writes v := by
  cases hc with
  | quiet hq | insert hk hid => rfl
  | queue hrow hfree | stage => exact Txs.push_writes_ne hv
  | commit | rollback => exact Txs.clear_writes_ne hv
  | update hrow hfree => rw [apply_txs]

end Hub

theorem writes_eq (hinit : ∀ w, init w → w.Idle) (h : Reach (system json) init ok cfg) (t : Tid) :
    (Hub.txs cfg.world).writes t =
      match cfg.threads t with
      | .running _ _ => pending (cfg.events t)
      | _ => [] := by
  induction h with
  | init h => simp [(hinit _ h).txs]
  | @step cfg l cfg' h hok hs ih =>
    cases hs with
    | @start u c hidle =>
      by_cases hu : t = u
      · subst hu
        have he := (script_holds json).tracks h t
        simp only [hidle] at he ih
        simp [Config.events_put_ne event?_start, he, ih, pending]
      · rw [cfg.put_threads_ne _ _ _ hu, Config.events_put_ne event?_start]
        exact ih
    | @op u c op ans k w hrun hw =>
      -- The writes of a thread follow its own events, and nobody else touches them.
      have hc := Hub.next_change hw
      by_cases hu : t = u
      · subst hu
        simp only [hrun] at ih
        simp [Hub.writes_change hc, ih, pending]
      · rw [cfg.put_threads_ne _ _ _ hu, Config.events_put_ne (Config.event?_ne hu)]
        simpa [Hub.writes_change_ne hc hu] using ih
    | @finish u c r hrun =>
      by_cases hu : t = u
      · subst hu
        simp
      · rw [cfg.put_threads_ne _ _ _ hu, Config.events_put_ne event?_finish]
        simpa [Txs.clear_writes_ne hu] using ih
    | @crash u c p hrun =>
      by_cases hu : t = u
      · subst hu
        simp
      · rw [cfg.put_threads_ne _ _ _ hu, Config.events_put_ne event?_crash]
        simpa [Txs.clear_writes_ne hu] using ih
    | @env e w hw =>
      rw [← (env_keeps hw).2.2] at ih
      exact ih

theorem locked_of_reach (hinit : ∀ w, init w → w.Idle) (h : Reach (system json) init ok cfg) :
    Hub.Locked cfg.world := by
  induction h with
  | init h => exact Hub.locked_of_idle (hinit _ h)
  | step h hok hs ih =>
    cases hs with
    | start ht => exact ih
    | op ht hw => exact ih.change (Hub.next_change hw)
    | finish ht | crash ht => exact ih.clear _
    | env hw =>
      obtain ⟨he, -, ht⟩ := env_keeps hw
      constructor
      · rw [ht]
        exact ih.held
      · simp only [Hub.status?, he, ht]
        exact ih.guarded

/-! ## A claimed row waits for its own call -/

@[simp] theorem delivery_update_guard (d : Delivery) (e : InboundEvent V) :
    (d.update e).guard = .received := by
  unfold Delivery.update settlement
  split <;> rfl

theorem attempt_update_guard (r : MappedRef) : (Attempt.update r).guard = .failed := rfl

theorem mem_pending {h : Past V} {id : Uuid} {u : EventUpdate} (hu : .update id u ∈ pending h) :
    ∃ n, ⟨.updateTx id u, .ok n⟩ ∈ h := by
  induction h with
  | nil => cases hu
  | cons ev h ih =>
    unfold pending hold at hu
    split at hu
    · split at hu
      · exact (ih hu).imp fun _ => List.mem_cons_of_mem _
      · rcases List.mem_append.mp hu with hu | hu
        · exact (ih hu).imp fun _ => List.mem_cons_of_mem _
        · cases List.mem_singleton.mp hu
          exact ⟨_, List.mem_cons_self⟩
    · rcases List.mem_append.mp hu with hu | hu
      · exact (ih hu).imp fun _ => List.mem_cons_of_mem _
      · cases List.mem_singleton.mp hu
    · cases hu
    · cases hu
    · exact (ih hu).imp fun _ => List.mem_cons_of_mem _

theorem did_of_writes (hinit : ∀ w, init w → w.Idle) (h : Reach (system json) init ok cfg)
    {t : Tid} {id : Uuid} {u : EventUpdate} (hu : .update id u ∈ (Hub.txs cfg.world).writes t) :
    ∃ n, cfg.Did t (.updateTx id u) (.ok n) := by
  rw [writes_eq hinit h] at hu
  split at hu
  · exact (mem_pending hu).imp fun _ => mem_events.mp
  · cases hu

theorem claim_of_updateTx (h : Reach (system json) init ok cfg) {t : Tid} {id : Uuid}
    {u : EventUpdate} {n : Nat} (hd : cfg.Did t (.updateTx id u) (.ok n)) (hg : u.guard = .received) :
    ∃ m, cfg.Did t (.claimEvent m) (.ok (some id)) := by
  obtain ⟨c, hc⟩ := (script_holds json).call_of_did h hd
  cases c with
  | receiveEvent e =>
    obtain ⟨pre, hpre, d, rfl, -, rfl⟩ := (script_holds json).past h hc hd
    refine ⟨e.newRow d.newId, mem_events.mp (hpre.subset ?_)⟩
    simp [Delivery.opened, Delivery.mapped, Delivery.claimed]
  | retryFailed co cn =>
    obtain ⟨pre, -, a, r, -, rfl, -⟩ := (script_holds json).past h hc hd
    rw [attempt_update_guard] at hg
    cases hg

theorem autocommit_cases (h : Reach (system json) init ok cfg) {t : Tid} {c : Call V} {id : Uuid}
    {u : EventUpdate} {k : Except DbError Nat → Prog (Sig V) (Res c)}
    (ht : cfg.threads t = .running c (.call (.update id u) k)) :
    (∃ reason, u = .retryMarkIgnored reason) ∨ ∃ d, u = .setErrorDetail d := by
  have hm := (script_holds json).must h ht
  cases c with
  | receiveEvent e => exact hm.elim
  | retryFailed co cn =>
    obtain ⟨a, -, ⟨reason, rfl, -⟩ | ⟨rej, rfl, -⟩⟩ := hm
    · exact .inl ⟨reason, rfl⟩
    · exact .inr ⟨rej.message, rfl⟩

theorem guard_of_update (h : Reach (system json) init ok cfg) {t : Tid} {c : Call V} {id : Uuid}
    {u : EventUpdate} {k : Except DbError Nat → Prog (Sig V) (Res c)}
    (ht : cfg.threads t = .running c (.call (.update id u) k)) : u.guard = .failed := by
  obtain ⟨reason, rfl⟩ | ⟨d, rfl⟩ := autocommit_cases h ht <;> rfl

theorem claim_unique_id (hinit : ∀ w, init w → w.Keyed) (h : Reach (system json) init ok cfg)
    {t u : Tid} {n n' : NewEventRow} {id : Uuid}
    (ht : cfg.Did t (.claimEvent n) (.ok (some id)))
    (hu : cfg.Did u (.claimEvent n') (.ok (some id))) : t = u := by
  have hn := (source?_of_claim hinit h ht).1
  rw [(source?_of_claim hinit h hu).1] at hn
  cases hn
  exact claim_unique hinit h ht hu rfl rfl

/-- The four ways in which a step can touch the status of a row. -/
theorem status?_step (h : Reach (system json) init ok cfg) {l : Label (system json)}
    (hs : Step (system json) cfg l cfg') (id : Uuid) :
    Hub.status? cfg'.world id = Hub.status? cfg.world id ∨
      (∃ t e, l = .op t (.claimEvent e) (.ok (some id)) ∧
        Hub.status? cfg'.world id = some .received) ∨
      (∃ t u, l = .op t .commit (.ok ()) ∧ .update id u ∈ (Hub.txs cfg.world).writes t) ∨
      ∃ t u, l = .op t (.update id u) (.ok 1) ∧ u.guard = .failed ∧
        Hub.status? cfg.world id = some .failed := by
  cases hs with
  | start ht | finish ht | crash ht => exact .inl rfl
  | env hw =>
    left
    simp only [Hub.status?, (env_keeps hw).1]
  | @op t c op ans k w ht hw =>
    cases Hub.next_change hw with
    | quiet hq | queue hrow hfree | stage | rollback => exact .inl rfl
    | @insert e hk hid =>
      rw [Config.put_world, Hub.insertEvent_status?]
      split
      · subst_vars
        exact .inr (.inl ⟨t, e, rfl, rfl⟩)
      · exact .inl rfl
    | commit =>
      by_cases hu : ∃ u, .update id u ∈ (Hub.txs cfg.world).writes t
      · obtain ⟨u, hu⟩ := hu
        exact .inr (.inr (.inl ⟨t, u, rfl, hu⟩))
      · exact .inl (Hub.commit_status?_ne fun u hm => hu ⟨u, hm⟩)
    | @update x u row hrow hfree =>
      by_cases hx : id = x
      · subst hx
        have hg := guard_of_update h ht
        exact .inr (.inr (.inr ⟨t, u, rfl, hg, hg ▸ Hub.status?_target hrow⟩))
      · exact .inl (Hub.apply_status?_ne _ u hx)

theorem status?_of_claim_step {l : Label (system json)} (hs : Step (system json) cfg l cfg')
    {t : Tid} {m : NewEventRow} {id : Uuid} (hl : l = .op t (.claimEvent m) (.ok (some id))) :
    Hub.status? cfg'.world id = some .received := by
  subst hl
  cases hs with
  | @op _ _ _ _ _ w ht hw =>
    have hc : Hub.Change t cfg.world (.claimEvent m : Op V) (.ok (some id)) w := Hub.next_change hw
    cases hc with
    | quiet hq => exact hq.elim
    | insert hk hid => rw [Config.put_world, Hub.insertEvent_status?, if_pos rfl]

/-- Until its own call commits, a claimed row is `received`. -/
theorem received_of_claim (hinit : ∀ w, init w → w.Idle) (h : Reach (system json) init ok cfg)
    {t : Tid} {m : NewEventRow} {id : Uuid} (hd : cfg.Did t (.claimEvent m) (.ok (some id))) :
    cfg.Did t .commit (.ok ()) ∨ Hub.status? cfg.world id = some .received := by
  induction h with
  | init h => cases hd
  | @step cfg l cfg' h hok hs ih =>
    rcases hs.did.mp hd with heq | hd
    · exact .inr (status?_of_claim_step hs heq.symm)
    rcases ih hd with hcom | hrec
    · exact .inl (hs.did.mpr (.inr hcom))
    rcases status?_step h hs id with hsame | ⟨u, e, -, hnew⟩ | ⟨u, upd, rfl, hu⟩ | ⟨u, upd, -, -, hf⟩
    · exact .inr (hsame.trans hrec)
    · exact .inr hnew
    -- A commit that writes this row had claimed it, so it is the commit of `t`.
    · have hg := (locked_of_reach hinit h).guarded hu
      obtain ⟨n, hn⟩ := did_of_writes hinit h hu
      obtain ⟨m', hm'⟩ := claim_of_updateTx h hn (Option.some.inj (hg.symm.trans hrec))
      obtain rfl : u = t := claim_unique_id (fun w hw => (hinit w hw).keyed) h hm' hd
      exact .inl (hs.did.mpr (.inl rfl))
    · rw [hrec] at hf
      cases hf

theorem updated_one (hinit : ∀ w, init w → w.Idle) (h : Reach (system json) init ok cfg)
    {t : Tid} {id : Uuid} {u : EventUpdate} {n : Nat} (hd : cfg.Did t (.updateTx id u) (.ok n))
    (hg : u.guard = .received) : n = 1 := by
  induction h with
  | init h => cases hd
  | @step cfg l cfg' h hok hs ih =>
    rcases hs.did.mp hd with rfl | hd
    · cases hs with
      | @op _ c _ _ k w ht hw =>
        have hm := (script_holds json).must h ht
        cases c with
        | retryFailed co cn =>
          obtain ⟨a, r, -, rfl, -⟩ := hm
          rw [attempt_update_guard] at hg
          cases hg
        | receiveEvent e =>
          obtain ⟨d, rfl, rfl, hev⟩ := hm
          have hclaim : cfg.Did t (.claimEvent (e.newRow d.newId)) (.ok (some d.eventId)) := by
            refine mem_events.mp ?_
            rw [hev]
            simp [Delivery.opened, Delivery.mapped, Delivery.claimed]
          have hcommit : ¬cfg.Did t .commit (.ok ()) := by
            rw [← mem_events, hev]
            simp [Delivery.opened, Delivery.mapped, Delivery.claimed]
          -- The call has claimed the row and has not committed, so the row still waits under its
          -- guard.
          have hrec := (received_of_claim hinit h hclaim).resolve_left hcommit
          obtain ⟨row, hrow, hs⟩ := Option.map_eq_some_iff.mp hrec
          have htarget := Hub.target_eq_some.mpr ⟨hrow, hs.trans hg.symm⟩
          simp only [system, Hub.next, htarget, Option.ite_none_right_eq_some] at hw
          exact hw.1.1
    · exact ih hd

end BackboneIntegrations.Intake
