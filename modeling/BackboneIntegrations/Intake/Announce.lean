import BackboneIntegrations.Intake.Effect

/-!
# One truthful announcement for each mapping

A mapped row has one `IntegrationEventMapped` record, with the reference that is in the row.
What a call publishes, returns or counts is what it committed.
-/

open Interleave

namespace BackboneIntegrations.Intake

variable {V : Type} {json : JsonCodec V} {init : Hub → Prop}
  {ok : Config (system json) → Label (system json) → Prop} {cfg cfg' : Config (system json)}

/-! ## The specification -/

/-- The internal record that an event announces. -/
def IntegrationEvent.ref? : IntegrationEvent → Option MappedRef
  | integrationEventMapped _ _ _ _ _ t i => some ⟨t, i⟩
  | integrationEventFailed .. | integrationEventIgnored .. => none

def Hub.mappedRecords (w : Hub) (id : Uuid) : List OutboxRecord :=
  w.outbox.filter fun r => r.eventType = "IntegrationEventMapped" ∧ r.aggregateId = id

/-- The row of an announced mapping is mapped, to the record that the announcement names. -/
structure Announced (w : Hub) (id : Uuid) : Prop where
  once : (w.mappedRecords id).length ≤ 1
  truthful : ∀ r ∈ w.mappedRecords id, ∃ row ref, w.events.lookup id = some row ∧
    row.status = .mapped ∧ row.ref? = some ref ∧ r.payload.ref? = some ref

/-- The step from `w` to `w'` settles a received row as the outcome says. -/
def Settles (w w' : Hub) (out : ReceiveOutcome) : Prop :=
  w.status? out.eventId = some .received ∧ ∃ row, w'.events.lookup out.eventId = some row ∧
    row.status = out.status ∧ row.mappedRefId = out.mappedRefId

/-- The events that a step moves from `failed` to `mapped`. -/
def remapped (w w' : Hub) : List Uuid :=
  w'.events.keys.filter fun id => w.status? id = some .failed ∧ w'.status? id = some .mapped

/-- The events that the steps of thread `t` move from `failed` to `mapped`. -/
def remappedBy (t : Tid) (tr : List (Taken (system json))) : List Uuid :=
  (tr.filter fun s => (s.label.event? t).isSome).flatMap fun s =>
    remapped s.before.world s.after.world

/-! ## One record, and the reference of its row -/

theorem guard_ne_mapped (u : EventUpdate) : u.guard ≠ .mapped := by
  cases u <;> nofun

theorem set_ref {u : EventUpdate} {ref : MappedRef} (hu : u.ref? = some ref) (row : EventRow) :
    (u.set row).status = .mapped ∧ (u.set row).ref? = some ref := by
  cases u with
  | markMapped | retryMarkMapped =>
    cases hu
    exact ⟨rfl, rfl⟩
  | _ => cases hu

theorem ref_of_etype {ev : IntegrationEvent} (h : ev.etype = "IntegrationEventMapped") :
    ∃ ref, ev.ref? = some ref := by
  cases ev with
  | integrationEventMapped => exact ⟨_, rfl⟩
  | _ => simp [IntegrationEvent.etype] at h

theorem delivery_refs (d : Delivery) (e : InboundEvent V) :
    (d.update e).ref? = (d.event e).ref? := by
  unfold Delivery.update Delivery.event settlement
  split <;> rfl

theorem attempt_refs {cn : Uuid} (a : Attempt V cn) (co : Uuid) (r : MappedRef) :
    (Attempt.update r).ref? = (a.event co r).ref? := rfl

namespace Announced

variable {w w' : Hub} {id : Uuid}

theorem of_nil (h : w.mappedRecords id = []) : Announced w id := by
  constructor <;> simp [h]

theorem of_same (h : Announced w id) (hrow : w'.events.lookup id = w.events.lookup id)
    (hout : w'.mappedRecords id = w.mappedRecords id) : Announced w' id := by
  constructor
  · rw [hout]
    exact h.once
  · rw [hout, hrow]
    exact h.truthful

theorem nil_of_status (h : Announced w id) (hs : w.status? id ≠ some .mapped) :
    w.mappedRecords id = [] := by
  refine List.eq_nil_iff_forall_not_mem.mpr fun r hr => hs ?_
  obtain ⟨row, ref, hrow, hm, -⟩ := h.truthful r hr
  rw [Hub.status?, hrow, Option.map_some, hm]

theorem commit {t : Tid} {u : EventUpdate} {ev : IntegrationEvent} (h : ∀ id, Announced w id)
    (hl : w.Locked) (href : u.ref? = ev.ref?)
    (hw : w.txs.writes t = [.update ev.eventId u, .stage ev.record]) :
    Announced (w.commit t) id := by
  have hrows : (w.commit t).events.lookup id =
      if id = ev.eventId then (w.events.lookup id).map u.set else w.events.lookup id := by
    simp [hw, Hub.apply_lookup]
  have hout : (w.commit t).mappedRecords id = w.mappedRecords id ++
      [ev.record].filter fun r => r.eventType = "IntegrationEventMapped" ∧ r.aggregateId = id := by
    simp [Hub.mappedRecords, hw]
  -- No update is guarded on `mapped`, so the row was not mapped yet and had no record.
  by_cases hid : id = ev.eventId
  · have hg : w.status? id = some u.guard := hl.guarded (t := t) (by rw [hid, hw]; simp)
    have hnil : w.mappedRecords id = [] := (h id).nil_of_status fun hm =>
      guard_ne_mapped u (Option.some.inj (hg.symm.trans hm))
    rw [hnil, List.nil_append] at hout
    constructor
    · rw [hout]
      exact List.length_filter_le _ _
    · intro r hr
      rw [hout] at hr
      simp only [List.mem_filter, List.mem_singleton, decide_eq_true_eq] at hr
      obtain ⟨rfl, htype, -⟩ := hr
      obtain ⟨ref, hev⟩ := ref_of_etype htype
      obtain ⟨row, hrow, -⟩ := Option.map_eq_some_iff.mp hg
      obtain ⟨hm, hset⟩ := set_ref (href.trans hev) row
      refine ⟨u.set row, ref, ?_, hm, hset, hev⟩
      rw [hrows, if_pos hid, hrow, Option.map_some]
  · refine (h id).of_same (by rw [hrows, if_neg hid]) ?_
    rw [hout]
    simp [IntegrationEvent.record, Ne.symm hid]

end Announced

theorem announced_step (hinit : ∀ w, init w → w.Idle) (h : Reach (system json) init ok cfg)
    {l : Label (system json)} (hs : Step (system json) cfg l cfg')
    (ih : ∀ id, Announced cfg.world id) (id : Uuid) : Announced cfg'.world id := by
  cases hs with
  | start ht | finish ht | crash ht => exact (ih id).of_same rfl rfl
  | env hw =>
    obtain ⟨he, ho, -⟩ := env_keeps hw
    exact (ih id).of_same (by rw [he]) (by rw [Hub.mappedRecords, ho, Hub.mappedRecords])
  | @op t c op ans k w ht hw =>
    cases Hub.next_change hw with
    | quiet hq | queue hrow hfree | stage | rollback => exact (ih id).of_same rfl rfl
    | @insert e hk hid =>
      by_cases hx : id = e.id
      · subst hx
        have hnone : Hub.status? cfg.world e.id ≠ some .mapped := by
          rw [Hub.status?_eq_none.mpr hid]
          nofun
        exact .of_nil ((ih e.id).nil_of_status hnone)
      · exact (ih id).of_same (by rw [Config.put_world, Hub.insertEvent_lookup, if_neg hx]) rfl
    | commit =>
      obtain ⟨u, ev, href, hwr⟩ := commit_writes_of (P := fun u ev => u.ref? = ev.ref?)
        delivery_refs attempt_refs hinit h ht
      exact .commit ih (locked_of_reach hinit h) href hwr
    | @update x u row hrow hfree =>
      -- An update outside a transaction writes no record, and the row that it changes had none.
      have hout : Hub.mappedRecords (Hub.apply cfg.world (.update x u)) id =
          Hub.mappedRecords cfg.world id := by
        rw [Hub.mappedRecords, Hub.apply_update_outbox, Hub.mappedRecords]
      by_cases hx : id = x
      · subst hx
        have hst := Hub.status?_target hrow
        refine .of_nil (hout.trans ((ih id).nil_of_status fun hm => ?_))
        exact guard_ne_mapped u (Option.some.inj (hst.symm.trans hm))
      · exact (ih id).of_same (by rw [Config.put_world, Hub.apply_lookup, if_neg hx]) hout

theorem announced_of_reach (hinit : ∀ w, init w → w.Fresh) (h : Reach (system json) init ok cfg)
    (id : Uuid) : Announced cfg.world id := by
  induction h generalizing id with
  | init h => exact .of_nil (by simp [Hub.mappedRecords, (hinit _ h).2.1])
  | step h _ hs ih => exact announced_step (fun w hw => Hub.idle_of_fresh (hinit w hw)) h hs ih id

/-! ## What a call has committed -/

theorem commit_world {t : Tid} (hs : Step (system json) cfg (.op t .commit (.ok ())) cfg') :
    cfg'.world = Hub.commit cfg.world t :=
  (Option.some.inj hs.next_eq).symm

/-- A commit that a call has done is a step of the run, after what the call had done before. -/
theorem committed_of_events {tr : List (Taken (system json))} (h : Run (system json) init ok tr cfg)
    {t : Tid} {c : Call V} (hc : cfg.call? t = some c) {pre : Past V}
    (hp : ⟨.commit, .ok ()⟩ :: pre <:+ cfg.events t) :
    ∃ newer s older, tr = newer ++ s :: older ∧ s.label = .op t .commit (.ok ()) ∧
      s.before.events t = pre ∧ Reach (system json) init ok s.before ∧
      s.after.world = Hub.commit s.before.world t ∧
      ∃ p, s.before.threads t = .running c p := by
  obtain ⟨newer, s, older, rfl, hl, hpre⟩ := h.taken_of_event hp
  obtain ⟨hold, -, hs⟩ := h.split
  obtain ⟨k, hk⟩ := h.thread_of_op hl hc
  rw [hl] at hs
  exact ⟨newer, s, older, rfl, hl, hpre, hold.reach, commit_world hs, _, hk⟩

theorem foldl_outbox (ws : List Write) (w : Hub) : w.outbox ⊆ (ws.foldl Hub.apply w).outbox := by
  induction ws generalizing w with
  | nil => exact List.Subset.refl _
  | cons wr ws ih =>
    rw [List.foldl_cons]
    refine List.Subset.trans ?_ (ih _)
    cases wr with
    | update id u => rw [Hub.apply_update_outbox]; exact List.Subset.refl _
    | stage record => exact List.subset_append_left ..

theorem outbox_step {l : Label (system json)} (hs : Step (system json) cfg l cfg') :
    Hub.outbox cfg.world ⊆ Hub.outbox cfg'.world := by
  cases hs with
  | start ht | finish ht | crash ht => exact List.Subset.refl _
  | env hw => rw [(env_keeps hw).2.1]; exact List.Subset.refl _
  | op ht hw =>
    cases Hub.next_change hw with
    | quiet hq | queue hrow hfree | stage | rollback | insert hk hid => exact List.Subset.refl _
    | commit => exact foldl_outbox _ _
    | update hrow hfree =>
      rw [Config.put_world, Hub.apply_update_outbox]
      exact List.Subset.refl _

theorem outbox_of_commit {w : Hub} {t : Tid} {id : Uuid} {u : EventUpdate} {record : OutboxRecord}
    (hw : w.txs.writes t = [.update id u, .stage record]) : record ∈ (w.commit t).outbox := by
  simp [hw]

theorem published_of_step (hinit : ∀ w, init w → w.Idle) {tr : List (Taken (system json))}
    (h : Run (system json) init ok tr cfg) {t : Tid} {ev : IntegrationEvent}
    (hs : Step (system json) cfg (.op t (.publish ev) ()) cfg') :
    ev.record ∈ Hub.outbox cfg.world := by
  obtain ⟨c, hc, hm⟩ := (script_holds json).asked h.reach hs
  have hkeep : ∀ {newer s older}, tr = newer ++ s :: older →
      ev.record ∈ Hub.outbox s.after.world → ev.record ∈ Hub.outbox cfg.world := by
    rintro newer s older rfl hin
    exact (h.keeps (P := fun cfg => ev.record ∈ Hub.outbox cfg.world) hin
      fun _ _ hst hmem => outbox_step hst hmem).1
  cases c with
  | receiveEvent e =>
    obtain ⟨d, n, rfl, hev⟩ := hm
    have hsuf : ⟨.commit, .ok ()⟩ :: d.staged e n <:+ cfg.events t := by
      rw [hev]
      exact List.suffix_rfl
    obtain ⟨newer, s, older, htr, -, hpre, hr, hw, p, hp⟩ := committed_of_events h hc hsuf
    refine hkeep htr ?_
    rw [hw]
    exact outbox_of_commit (delivery_writes hinit hr hp hpre)
  | retryFailed co cn =>
    obtain ⟨a, r, rfl, hev⟩ := hm
    have hsuf : ⟨.commit, .ok ()⟩ :: a.staged json co r <:+ cfg.events t := by
      rw [hev]
      exact List.suffix_rfl
    obtain ⟨newer, s, older, htr, -, hpre, hr, hw, p, hp⟩ := committed_of_events h hc hsuf
    refine hkeep htr ?_
    rw [hw]
    exact outbox_of_commit (attempt_writes hinit hr hp hpre)

/-! ## The outcome of a delivery -/

theorem outcome_settled {d : Delivery} {e : InboundEvent V} {row : EventRow}
    (hclean : row.mappedRefId = none) :
    ((d.update e).set row).status = d.outcome.status ∧
      ((d.update e).set row).mappedRefId = d.outcome.mappedRefId := by
  unfold Delivery.update settlement Delivery.outcome
  split <;> simp [EventUpdate.set, hclean]

theorem settled_of_done (hinit : ∀ w, init w → w.Fresh) {tr : List (Taken (system json))}
    (h : Run (system json) init ok tr cfg) {t : Tid} {e : InboundEvent V} {out : ReceiveOutcome}
    (ht : cfg.threads t = .done (.receiveEvent e) (.ok out)) (hdup : out.duplicate = false) :
    ∃ s ∈ tr, s.label = .op t .commit (.ok ()) ∧ Settles s.before.world s.after.world out := by
  have hidle : ∀ w, init w → w.Idle := fun w hw => Hub.idle_of_fresh (hinit w hw)
  have hleave : receiveLeave e (cfg.events t) (.ok out) := (script_holds json).leave h.reach ht
  simp only [receiveLeave, hdup, Bool.false_eq_true, if_false] at hleave
  obtain ⟨d, n, ev, rfl, hev⟩ := hleave
  have hc : cfg.call? t = some (.receiveEvent e) := by rw [Config.call?, ht, Thread.call?]
  obtain ⟨newer, s, older, rfl, hl, hpre, hr, hw, p, hp⟩ :=
    committed_of_events h hc (hev ▸ List.suffix_cons ..)
  have hwrites := delivery_writes hidle hr hp hpre
  have hg : Hub.status? s.before.world d.eventId = some .received := by
    rw [← delivery_update_guard d e]
    exact (locked_of_reach hidle hr).guarded (t := t) (hwrites ▸ List.mem_cons_self)
  obtain ⟨row, hrow, hst⟩ := Option.map_eq_some_iff.mp hg
  have hshape := shaped_of_reach hidle (fun w hw => fresh_shaped (hinit w hw)) hr _ row hrow
  have hclean : row.mappedRefId = none := by
    by_contra hne
    have hm := hshape.refId.mp hne
    rw [hst] at hm
    cases hm
  refine ⟨s, by simp, hl, ?_⟩
  rw [Settles, d.outcome_eventId, hw]
  refine ⟨hg, (d.update e).set row, ?_, outcome_settled hclean⟩
  simp [hwrites, Hub.apply_lookup, hrow]

/-! ## The count of a retry -/

theorem remapped_eq_nil {w w' : Hub}
    (h : ∀ id, w.status? id = some .failed → w'.status? id ≠ some .mapped) : remapped w w' = [] := by
  simp only [remapped, List.filter_eq_nil_iff, decide_eq_true_eq, not_and]
  exact fun id _ => h id

theorem remapped_commit {w : Hub} (hl : w.Locked) {t : Tid} {id : Uuid} {r : MappedRef}
    {record : OutboxRecord} (hw : w.txs.writes t = [.update id (Attempt.update r), .stage record]) :
    (remapped w (w.commit t)).length = 1 := by
  have hg : w.status? id = some .failed := hl.guarded (t := t) (hw ▸ List.mem_cons_self)
  obtain ⟨row, hrow, -⟩ := Option.map_eq_some_iff.mp hg
  have hrows (x : Uuid) : (w.commit t).events.lookup x =
      if x = id then (w.events.lookup x).map (Attempt.update r).set else w.events.lookup x := by
    simp [hw, Hub.apply_lookup]
  have hmem (x : Uuid) : x ∈ remapped w (w.commit t) ↔ x = id := by
    simp only [remapped, List.mem_filter, decide_eq_true_eq]
    constructor
    · rintro ⟨-, hf, hm⟩
      by_contra hx
      rw [Hub.status?, hrows, if_neg hx] at hm
      rw [Hub.status?, hm] at hf
      cases hf
    · rintro rfl
      have hnew : (w.commit t).events.lookup x = some ((Attempt.update r).set row) := by
        rw [hrows, if_pos rfl, hrow, Option.map_some]
      refine ⟨AList.mem_keys.mp ?_, hg, ?_⟩
      · exact AList.lookup_isSome.mp (by rw [hnew, Option.isSome_some])
      · rw [Hub.status?, hnew]
        rfl
  have hnodup : (remapped w (w.commit t)).Nodup := (AList.keys_nodup _).filter _
  have hperm : (remapped w (w.commit t)).Perm [id] :=
    (List.perm_ext_iff_of_nodup hnodup (List.nodup_singleton id)).mpr (by simpa using hmem)
  exact hperm.length_eq

theorem autocommit_ne_mapped {t : Tid} {id : Uuid} {u : EventUpdate}
    (h : Reach (system json) init ok cfg) (hs : Step (system json) cfg (.op t (.update id u) (.ok 1)) cfg') :
    Hub.status? cfg'.world id ≠ some .mapped := by
  cases hs with
  | @op _ _ _ _ _ w ht hw =>
    have hc : Hub.Change t cfg.world (.update id u : Op V) (.ok 1) w := Hub.next_change hw
    cases hc with
    | quiet hq => cases hq
    | @update _ _ row hrow hfree =>
      obtain ⟨hrow, hst⟩ := Hub.target_eq_some.mp hrow
      rw [Config.put_world, Hub.status?, Hub.apply_lookup, if_pos rfl, hrow]
      obtain ⟨reason, rfl⟩ | ⟨d, rfl⟩ := autocommit_cases h ht
      · rintro ⟨⟩
      · simp [EventUpdate.set, hst, EventUpdate.guard]

theorem remapped_quiet {t : Tid} {op : Op V} {ans : Ans op}
    (h : Reach (system json) init ok cfg) (hs : Step (system json) cfg (.op t op ans) cfg')
    (hq : isCommit ⟨op, ans⟩ = false) : remapped cfg.world cfg'.world = [] := by
  refine remapped_eq_nil fun id hf hm => ?_
  rcases status?_step h hs id with hsame | ⟨u, e, -, hnew⟩ | ⟨u, upd, hl, -⟩ | ⟨u, upd, hl, -⟩
  · rw [hsame, hf] at hm
    cases hm
  · rw [hnew] at hm
    cases hm
  · cases hl
    cases hq
  · cases hl
    exact autocommit_ne_mapped h hs hm

theorem remapped_count (hinit : ∀ w, init w → w.Idle) {tr : List (Taken (system json))}
    (h : Run (system json) init ok tr cfg) {t : Tid}
    (ht : ∀ e, cfg.call? t ≠ some (.receiveEvent e)) :
    (remappedBy t tr).length = (cfg.events t).countP isCommit := by
  induction h with
  | init h => rfl
  | @step tr cfg l cfg' h _ hs ih =>
    specialize ih fun e hc => ht e (hs.keeps_call hc)
    rw [Config.events_step hs]
    cases hev : l.event? t with
    | none =>
      rw [remappedBy, List.filter_cons_of_neg (by simp [hev])]
      exact ih
    | some ev =>
      rw [remappedBy, List.filter_cons_of_pos (by simp [hev]), List.flatMap_cons, List.length_append]
      change _ + (remappedBy t tr).length = _
      rw [ih, Option.toList_some, List.singleton_append, List.countP_cons, Nat.add_comm]
      congr 1
      cases l with
      | op u op ans =>
        obtain ⟨rfl, rfl⟩ : u = t ∧ ev = ⟨op, ans⟩ := by
          simp only [Label.event?, Option.ite_none_right_eq_some, Option.some.injEq] at hev
          exact ⟨hev.1, hev.2.symm⟩
        cases hq : isCommit ⟨op, ans⟩ with
        | false => simp [remapped_quiet h.reach hs hq]
        | true =>
          -- Only a commit moves rows to `mapped`, and a retry commits one row at a time.
          obtain ⟨rfl, hans⟩ : op = .commit ∧ ans ≍ (.ok () : Except DbError Unit) := by
            unfold isCommit at hq
            split at hq
            · rename_i heq
              cases heq
              exact ⟨rfl, .rfl⟩
            · cases hq
          obtain rfl := eq_of_heq hans
          have hw := commit_world hs
          cases hs with
          | @op _ c _ _ k w hrun _ =>
            have hm := (script_holds json).must h.reach hrun
            cases c with
            | receiveEvent e => exact absurd (by simp [Config.call?_put, Thread.call?]) (ht e)
            | retryFailed co cn =>
              obtain ⟨a, r, hpre⟩ := hm
              have hwr := attempt_writes hinit h.reach hrun hpre
              rw [hw, if_pos rfl]
              exact remapped_commit (locked_of_reach hinit h.reach) hwr
      | _ => cases hev

/-- **A mapping is announced once and truthfully.** In every run, each event has at most one
`IntegrationEventMapped` record, with the reference of its row; what is published is in the outbox
already; a delivery reports what its own commit settled; and a retry counts the events that its
own steps moved from `failed` to `mapped`. -/
theorem mapping_announced (hinit : ∀ w, init w → w.Fresh) {tr : List (Taken (system json))}
    (h : Run (system json) init ok tr cfg) :
    (∀ id, Announced cfg.world id) ∧
    (∀ s ∈ tr, ∀ t ev, s.label = .op t (.publish ev) () →
      ev.record ∈ Hub.outbox s.before.world) ∧
    (∀ t e out, cfg.threads t = .done (.receiveEvent e) (.ok out) → out.duplicate = false →
      ∃ s ∈ tr, s.label = .op t .commit (.ok ()) ∧ Settles s.before.world s.after.world out) ∧
    (∀ t co cn n, cfg.threads t = .done (.retryFailed co cn) (.ok n) →
      (remappedBy t tr).length = n) := by
  have hidle : ∀ w, init w → w.Idle := fun w hw => Hub.idle_of_fresh (hinit w hw)
  refine ⟨announced_of_reach hinit h.reach, ?_, fun t e out => settled_of_done hinit h, ?_⟩
  · intro s hs t ev hl
    obtain ⟨newer, older, rfl⟩ := List.append_of_mem hs
    obtain ⟨hold, -, hstep⟩ := h.split
    rw [hl] at hstep
    exact published_of_step hidle hold hstep
  · intro t co cn n ht
    have hc : cfg.call? t = some (.retryFailed co cn) := by rw [Config.call?, ht, Thread.call?]
    have hcount : retryLeave (.ok n) (cfg.events t) := (script_holds json).leave h.reach ht
    rw [remapped_count hidle h fun e he => by rw [hc] at he; cases he]
    exact hcount n rfl

/-! A rejected payment that the target books on the retry. -/

def bookedPayment : IntegrationEvent :=
  .integrationEventMapped 10 7 1 "payment.settled" "ext-1" "Payment" 42

def retryMapped : List (Label (system textJson)) :=
  rejectedPayment.labels payment 1 ++ listFailed textJson ++
    [.op 2 (.map (failedPayment.mapRequest textJson 7 .paymentGateway))
        (.ok (.mapped ⟨"Payment", 42⟩)),
      .op 2 .begin (.ok ()), .op 2 (.updateTx 10 (.retryMarkMapped "Payment" 42)) (.ok 1),
      .op 2 (.stage bookedPayment.record) (.ok ()), .op 2 .commit (.ok ()),
      .op 2 (.publish bookedPayment) (), .finish 2]

theorem mapping_announced_booked : ∃ tr cfg,
    Run (system textJson) (· = twoConnectors) (fun _ _ => True) tr cfg ∧
      Hub.mappedRecords cfg.world 10 = [bookedPayment.record] ∧
      (∀ id, Announced cfg.world id) ∧
      (∀ s ∈ tr, ∀ t ev, s.label = .op t (.publish ev) () →
        ev.record ∈ Hub.outbox s.before.world) ∧
      (∀ t e out, cfg.threads t = .done (.receiveEvent e) (.ok out) → out.duplicate = false →
        ∃ s ∈ tr, s.label = .op t .commit (.ok ()) ∧ Settles s.before.world s.after.world out) ∧
      (∀ t co cn n, cfg.threads t = .done (.retryFailed co cn) (.ok n) →
        (remappedBy t tr).length = n) := by
  have hrun : (replay (fun _ _ => True) (Config.init twoConnectors) retryMapped).any fun cfg =>
      Hub.mappedRecords cfg.world 10 = [bookedPayment.record] := by decide
  obtain ⟨cfg, hcfg, hbooked⟩ := (Option.any_eq_true ..).mp hrun
  have hr : Reach (system textJson) (· = twoConnectors) (fun _ _ => True) cfg :=
    .replay (.init (by rfl)) hcfg
  obtain ⟨tr, htr⟩ := hr.run
  refine ⟨tr, cfg, htr, by simpa using hbooked, mapping_announced ?_ htr⟩
  rintro w rfl
  exact twoConnectors_fresh

end BackboneIntegrations.Intake
