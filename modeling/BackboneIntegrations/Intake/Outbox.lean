import BackboneIntegrations.Intake.Transactions

/-!
# The outbox of the intake

A change of a row's status and its outbox record commit together. The one statement that
breaks this is the autocommitted `retry_mark_ignored`.
-/

open Interleave

namespace BackboneIntegrations.Intake

variable {V : Type} {json : JsonCodec V} {init : Hub → Prop}
  {ok : Config (system json) → Label (system json) → Prop} {cfg cfg' : Config (system json)}

/-! ## The specification -/

/-- The event type that names a status. -/
def IntegrationStatus.eventType? : IntegrationStatus → Option String
  | received => none
  | mapped => some "IntegrationEventMapped"
  | ignored => some "IntegrationEventIgnored"
  | failed => some "IntegrationEventFailed"

/-- The event types that a change from `old` to `new` has to record. -/
def announced (old new : Option IntegrationStatus) : List (Option String) :=
  match old, new with
  | some a, some b => if a = b then [] else [b.eventType?]
  | _, _ => []

/-- What commits together: new outbox records, one for each status that changed. -/
def Durable (w w' : Hub) : Prop :=
  ∃ records, w'.outbox = w.outbox ++ records ∧
    ∀ id, (records.filter (·.aggregateId = id)).map (fun r => some r.eventType) =
      announced (w.status? id) (w'.status? id)

@[simp] theorem announced_self (s : Option IntegrationStatus) : announced s s = [] := by
  cases s <;> simp [announced]

theorem durable_of_same {w w' : Hub} (ho : w'.outbox = w.outbox)
    (hs : ∀ id, announced (w.status? id) (w'.status? id) = []) : Durable w w' :=
  ⟨[], by simp [ho], fun id => by simp [hs id]⟩

/-! ## What a transaction commits -/

/-- The update sets the status that the event names, and it is a change. -/
def EventUpdate.Names (u : EventUpdate) (ev : IntegrationEvent) : Prop :=
  ∀ row, (u.set row).status.eventType? = some ev.etype ∧ (u.set row).status ≠ u.guard

theorem delivery_names (d : Delivery) (e : InboundEvent V) : (d.update e).Names (d.event e) := by
  intro row
  unfold Delivery.update Delivery.event settlement
  split <;> exact ⟨rfl, nofun⟩

theorem attempt_names {cn : Uuid} (a : Attempt V cn) (co : Uuid) (r : MappedRef) :
    (Attempt.update r).Names (a.event co r) := fun _ => ⟨rfl, nofun⟩

theorem delivery_eventId (d : Delivery) (e : InboundEvent V) : (d.event e).eventId = d.eventId := by
  unfold Delivery.event settlement
  split <;> rfl

theorem delivery_writes (hinit : ∀ w, init w → w.Idle) (h : Reach (system json) init ok cfg)
    {t : Tid} {e : InboundEvent V} {p : Prog (Sig V) (Res (.receiveEvent e))}
    (ht : cfg.threads t = .running (.receiveEvent e) p) {d : Delivery} {n : Nat}
    (hev : cfg.events t = d.staged e n) :
    (Hub.txs cfg.world).writes t = [.update d.eventId (d.update e), .stage (d.event e).record] := by
  have hd : cfg.Did t (.updateTx d.eventId (d.update e)) (.ok n) := by
    refine mem_events.mp ?_
    rw [hev]
    simp [Delivery.staged, Delivery.updated]
  have hn : n = 1 := updated_one hinit h hd (delivery_update_guard d e)
  rw [writes_eq hinit h t, ht, hev, hn]
  rfl

theorem attempt_writes (hinit : ∀ w, init w → w.Idle) (h : Reach (system json) init ok cfg)
    {t : Tid} {co cn : Uuid} {p : Prog (Sig V) (Res (.retryFailed co cn))}
    (ht : cfg.threads t = .running (.retryFailed co cn) p) {a : Attempt V cn} {r : MappedRef}
    (hev : cfg.events t = a.staged json co r) :
    (Hub.txs cfg.world).writes t =
      [.update a.row.id (Attempt.update r), .stage (a.event co r).record] := by
  rw [writes_eq hinit h t, ht, hev]
  simp [Attempt.staged, Attempt.updated, Attempt.opened, Attempt.mapped, pending, hold, a.closed]

/-- Every commit writes one row and one record. What goes for the pairs of a delivery and of a
retry goes for these two. -/
theorem commit_writes_of {P : EventUpdate → IntegrationEvent → Prop}
    (hdel : ∀ (d : Delivery) (e : InboundEvent V), P (d.update e) (d.event e))
    (hatt : ∀ {cn : Uuid} (a : Attempt V cn) co r, P (Attempt.update r) (a.event co r))
    (hinit : ∀ w, init w → w.Idle) (h : Reach (system json) init ok cfg)
    {t : Tid} {c : Call V} {k : Except DbError Unit → Prog (Sig V) (Res c)}
    (ht : cfg.threads t = .running c (.call .commit k)) :
    ∃ u ev, P u ev ∧ (Hub.txs cfg.world).writes t = [.update ev.eventId u, .stage ev.record] := by
  have hm := (script_holds json).must h ht
  cases c with
  | receiveEvent e =>
    obtain ⟨d, n, hev⟩ := hm
    refine ⟨d.update e, d.event e, hdel d e, ?_⟩
    rw [delivery_writes hinit h ht hev, delivery_eventId]
  | retryFailed co cn =>
    obtain ⟨a, r, hev⟩ := hm
    exact ⟨Attempt.update r, a.event co r, hatt a co r, attempt_writes hinit h ht hev⟩

theorem commit_writes (hinit : ∀ w, init w → w.Idle) (h : Reach (system json) init ok cfg)
    {t : Tid} {c : Call V} {k : Except DbError Unit → Prog (Sig V) (Res c)}
    (ht : cfg.threads t = .running c (.call .commit k)) :
    ∃ u ev, u.Names ev ∧
      (Hub.txs cfg.world).writes t = [.update ev.eventId u, .stage ev.record] :=
  commit_writes_of delivery_names attempt_names hinit h ht

theorem durable_commit {w : Hub} (hl : w.Locked) {t : Tid} {u : EventUpdate}
    {ev : IntegrationEvent} (hn : u.Names ev)
    (hw : w.txs.writes t = [.update ev.eventId u, .stage ev.record]) : Durable w (w.commit t) := by
  refine ⟨[ev.record], by simp [hw], fun id => ?_⟩
  have hg : w.status? ev.eventId = some u.guard :=
    hl.guarded (t := t) (hw ▸ List.mem_cons_self)
  by_cases hid : id = ev.eventId
  · subst hid
    obtain ⟨row, hrow, hs⟩ := Option.map_eq_some_iff.mp hg
    have hnew : (w.commit t).status? ev.eventId = some (u.set row).status := by
      simp [Hub.status?, hw, Hub.apply_lookup, hrow]
    simp [hg, hnew, announced, (hn row).2.symm, (hn row).1, IntegrationEvent.record]
  · have hsame : (w.commit t).status? id = w.status? id :=
      Hub.commit_status?_ne fun u' hu' => by simp_all
    simp [hsame, IntegrationEvent.record, Ne.symm hid]

/-! ## Every step of every run -/

/-- The step is a `retry_mark_ignored` that hits a row which is still `failed`. -/
def SilentIgnore (w : Hub) (l : Label (system json)) : Prop :=
  ∃ t id reason n, l = .op t (.update id (.retryMarkIgnored reason)) (.ok n) ∧
    w.status? id = some .failed

theorem durable_step (hinit : ∀ w, init w → w.Idle) (h : Reach (system json) init ok cfg)
    {l : Label (system json)} (hs : Step (system json) cfg l cfg')
    (hl : ¬SilentIgnore cfg.world l) : Durable cfg.world cfg'.world := by
  cases hs with
  | start ht | finish ht | crash ht => exact durable_of_same rfl fun id => announced_self _
  | env hw =>
    obtain ⟨he, ho, -⟩ := env_keeps hw
    exact durable_of_same ho fun id => by simp [Hub.status?, he]
  | @op t c op ans k w ht hw =>
    cases Hub.next_change hw with
    | quiet hq | queue hrow hfree | stage | rollback =>
      exact durable_of_same rfl fun id => announced_self _
    | @insert e hk hid =>
      refine durable_of_same rfl fun id => ?_
      rw [Config.put_world, Hub.insertEvent_status?]
      split
      · subst_vars
        rw [Hub.status?_eq_none.mpr hid]
        rfl
      · exact announced_self _
    | commit =>
      obtain ⟨u, ev, hn, hw⟩ := commit_writes hinit h ht
      exact durable_commit (locked_of_reach hinit h) hn hw
    | @update id u row hrow hfree =>
      have hg := guard_of_update h ht
      have hf := hg ▸ Hub.status?_target hrow
      refine durable_of_same (Hub.apply_update_outbox ..) fun id' => ?_
      by_cases hid : id' = id
      · subst hid
        -- `retry_mark_ignored` moves the status without a record, `set_error_detail` keeps the
        -- status.
        obtain ⟨reason, rfl⟩ | ⟨d, rfl⟩ := autocommit_cases h ht
        · exact (hl ⟨t, id', reason, 1, rfl, hf⟩).elim
        · have hsame : (Hub.apply cfg.world (.update id' (.setErrorDetail d))).status? id' =
              Hub.status? cfg.world id' := by
            simp [Hub.status?, Hub.apply_lookup, EventUpdate.set, Function.comp_def]
          simp [hsame]
      · rw [Config.put_world, Hub.apply_status?_ne _ u hid, announced_self]

theorem not_durable_of_silent {l : Label (system json)} (hs : Step (system json) cfg l cfg')
    (hl : SilentIgnore cfg.world l) : ¬Durable cfg.world cfg'.world := by
  obtain ⟨t, id, reason, n, rfl, hf⟩ := hl
  obtain ⟨row, hrow, hst⟩ := Option.map_eq_some_iff.mp hf
  cases hs with
  | op ht hw =>
    have htarget : Hub.target cfg.world id (.retryMarkIgnored reason) = some row :=
      Hub.target_eq_some.mpr ⟨hrow, hst⟩
    simp only [system, Hub.next, htarget, Option.ite_none_right_eq_some, Option.some.injEq] at hw
    obtain ⟨-, rfl⟩ := hw
    rintro ⟨records, ho, hrec⟩
    have hnil : records = [] := by simpa using ho
    have := hrec id
    simp [hnil, Hub.status?, Hub.apply_lookup, hrow, hst, announced, EventUpdate.set] at this

/-- **No lost lifecycle event**, up to the silent `failed → ignored` of a retry. -/
theorem outbox_durable_iff (hinit : ∀ w, init w → w.Idle) {tr : List (Taken (system json))}
    (h : Run (system json) init (fun _ _ => True) tr cfg) :
    (∀ s ∈ tr, Durable s.before.world s.after.world) ↔
      ∀ s ∈ tr, ¬SilentIgnore s.before.world s.label := by
  have hboth := h.forall_taken (P := fun s => Durable s.before.world s.after.world ↔
    ¬SilentIgnore s.before.world s.label) fun hr _ hs =>
      ⟨fun hd hl => not_durable_of_silent hs hl hd, durable_step hinit hr hs⟩
  exact forall₂_congr hboth

/-! A rejected payment that the target ignores on the retry. -/

def rejectedPayment : Delivery :=
  ⟨⟨.paymentGateway, .active⟩, gateway_active, 10, 10, .error ⟨"NO_ACCOUNT", "no such account"⟩⟩

def failedPayment : FailedEventRow :=
  ⟨10, "payment.settled", "ext-1", "order-1:settled", some "no such account", "1"⟩

def listFailed (json : JsonCodec String) : List (Label (system json)) :=
  [.start 2 (.retryFailed 7 1), .op 2 (.fetchForRetry 1) (.ok (some ⟨.paymentGateway⟩)),
    .op 2 (.fetchFailed 1) (.ok [failedPayment])]

def retryIgnored : List (Label (system textJson)) :=
  rejectedPayment.labels payment 1 ++ listFailed textJson ++
    [.op 2 (.map (failedPayment.mapRequest textJson 7 .paymentGateway)) (.ok (.ignored "no-op"))]

theorem retryIgnored_runs :
    (replay (fun _ _ => True) (Config.init twoConnectors) retryIgnored).isSome := by
  decide

def ignoring : Config (system textJson) :=
  (replay (fun _ _ => True) (Config.init twoConnectors) retryIgnored).get retryIgnored_runs

def markIgnored : Label (system textJson) :=
  .op 2 (.update 10 (.retryMarkIgnored "no-op")) (.ok 1)

theorem ignoring_failed : Hub.status? ignoring.world 10 = some .failed := by decide

theorem markIgnored_fires : (fire ignoring markIgnored).isSome := by decide

theorem ignored_run : ∃ tr, Run (system textJson) (· = twoConnectors) (fun _ _ => True)
    (⟨ignoring, markIgnored, (fire ignoring markIgnored).get markIgnored_fires⟩ :: tr)
    ((fire ignoring markIgnored).get markIgnored_fires) := by
  have hr : Reach (system textJson) (· = twoConnectors) (fun _ _ => True) ignoring :=
    .of_replay (by rfl) retryIgnored retryIgnored_runs
  obtain ⟨tr, htr⟩ := hr.run
  exact ⟨tr, .step htr trivial (step_of_fire (Option.some_get _).symm)⟩

theorem ignored_silently : ∃ tr cfg,
    Run (system textJson) (· = twoConnectors) (fun _ _ => True) tr cfg ∧
      ∃ s ∈ tr, ¬Durable s.before.world s.after.world := by
  obtain ⟨tr, htr⟩ := ignored_run
  have hs : Step (system textJson) ignoring markIgnored _ :=
    step_of_fire (Option.some_get markIgnored_fires).symm
  have hl : SilentIgnore ignoring.world markIgnored := ⟨2, 10, "no-op", 1, rfl, ignoring_failed⟩
  exact ⟨_, _, htr, _, List.mem_cons_self, not_durable_of_silent hs hl⟩

theorem outbox_durable_iff_ignored : ∃ tr cfg,
    Run (system textJson) (· = twoConnectors) (fun _ _ => True) tr cfg ∧ tr ≠ [] ∧
      ((∀ s ∈ tr, Durable s.before.world s.after.world) ↔
        ∀ s ∈ tr, ¬SilentIgnore s.before.world s.label) := by
  obtain ⟨tr, htr⟩ := ignored_run
  refine ⟨_, _, htr, List.cons_ne_nil _ _, outbox_durable_iff ?_ htr⟩
  rintro w rfl
  exact Hub.idle_of_fresh twoConnectors_fresh

end BackboneIntegrations.Intake
