import BackboneIntegrations.Intake.Announce

/-!
# The declared constraints of `integration_events`

The migrations put `CHECK`s on the columns that hold the strings of a provider and of a target.
Here a statement fails only where it violates one of the constraints.
-/

open Interleave

namespace BackboneIntegrations.Intake

variable {V : Type} {json : JsonCodec V} {init : Hub → Prop} {cfg cfg' : Config (system json)}

/-! ## The checks -/

/-- `btrim(column) <> ''`. `btrim` takes off spaces and nothing else. -/
def required (s : String) : Bool := s.toList.any (· ≠ ' ')

/-- `char_length(column) <= n`. -/
def maxLength (n : Nat) (s : String) : Bool := s.length ≤ n

/-- The checks of the columns that `claim_event` writes. -/
def NewEventRow.declared (e : NewEventRow) : Bool :=
  required e.eventType && maxLength 80 e.eventType &&
  required e.externalId && maxLength 200 e.externalId &&
  required e.businessKey && maxLength 200 e.businessKey &&
  required e.raw && maxLength 20000 e.raw

def EventRow.declared (r : EventRow) : Bool :=
  r.source.declared && r.mappedRefType.all (maxLength 60) && r.errorDetail.all (maxLength 1000)

/-- The checks of the columns that an update writes. -/
def EventUpdate.declared : EventUpdate → Bool
  | markMapped t _ | retryMarkMapped t _ => maxLength 60 t
  | markIgnored s | markFailed s | retryMarkIgnored s | setErrorDetail s => maxLength 1000 s

namespace Hub

/-- The row that the `UPDATE` hits, if any, passes its checks afterwards. -/
def checks (w : Hub) (eventId : Uuid) (u : EventUpdate) : Bool :=
  (w.target eventId u).all fun row => (u.set row).declared

/-- The checks, the foreign key and the primary key of a new row. -/
def admits (w : Hub) (e : NewEventRow) : Bool :=
  e.declared && (w.connectors.lookup e.connectorId).isSome && (w.events.lookup e.id).isNone

/-- A statement fails if and only if it violates a declared constraint. `ON CONFLICT` comes after
the checks. -/
def declaredAnswer (w : Hub) : (op : Op V) → Ans op → Bool
  | .claimEvent e, .ok (some _) => w.admits e
  | .claimEvent e, .ok none => e.declared
  | .claimEvent e, .error _ => !w.admits e
  | .updateTx id u, .ok _ | .update id u, .ok _ => w.checks id u
  | .updateTx id u, .error _ | .update id u, .error _ => !w.checks id u
  | .fetchGate _, .error _ | .fetchForRetry _, .error _ | .fetchByBusinessKey .., .error _
  | .fetchFailed _, .error _ | .begin, .error _ | .stage _, .error _ | .commit, .error _
  | .rollback, .error _ => false
  | _, _ => true

end Hub

/-- The runs on a database with the declared constraints and no other failure. -/
def Declared (cfg : Config (system json)) : Label (system json) → Prop
  | .op _ op ans => Hub.declaredAnswer cfg.world op ans
  | _ => True

instance (cfg : Config (system json)) (l : Label (system json)) : Decidable (Declared cfg l) := by
  cases l <;> unfold Declared <;> infer_instance

theorem set_declared {u : EventUpdate} {r : EventRow} (h : r.declared) :
    (u.set r).declared = u.declared := by
  simp only [EventRow.declared, Bool.and_eq_true] at h
  obtain ⟨⟨hsource, htype⟩, hdetail⟩ := h
  simp only [EventRow.declared, set_source, hsource, Bool.true_and]
  cases u <;> simp [EventUpdate.set, EventUpdate.declared, htype, hdetail]

/-! ## Every row passes its checks -/

/-- What an answer of the target is recorded as. -/
def answerStatus : Except MapRejected MapOutcome → IntegrationStatus
  | .ok (.mapped _) => .mapped
  | .ok (.ignored _) => .ignored
  | .error _ => .failed

/-- The string of the answer that goes to a column fits there. -/
def fits : Except MapRejected MapOutcome → Bool
  | .ok (.mapped r) => maxLength 60 r.internalRefType
  | .ok (.ignored reason) => maxLength 1000 reason
  | .error rej => maxLength 1000 rej.message

theorem delivery_declared (d : Delivery) (e : InboundEvent V) :
    (d.update e).declared = fits d.ans := by
  unfold Delivery.update settlement fits
  split <;> simp [*, EventUpdate.declared]

theorem outcome_status (d : Delivery) : d.outcome.status = answerStatus d.ans := by
  unfold Delivery.outcome answerStatus
  split <;> simp [*]

theorem source_declared (hinit : ∀ w, init w → w.Fresh) (h : Reach (system json) init Declared cfg)
    {id : Uuid} {n : NewEventRow} (hn : Hub.source? cfg.world id = some n) : n.declared := by
  induction h with
  | init h => simp [Hub.source?, (hinit _ h).1] at hn
  | step h hok hs ih =>
    rcases source?_step hs with he | ⟨t, e, rfl, -, -, he⟩
    · exact ih (he ▸ hn)
    · rw [he, Hub.insertEvent_source?] at hn
      split at hn
      · cases hn
        simp only [Declared, Hub.declaredAnswer, Hub.admits, Bool.and_eq_true] at hok
        exact hok.1.1
      · exact ih hn

theorem received_declared (hinit : ∀ w, init w → w.Fresh)
    (h : Reach (system json) init Declared cfg) {id : Uuid} {r : EventRow}
    (hr : (Hub.events cfg.world).lookup id = some r) (hs : r.status = .received) : r.declared := by
  have hsource := source_declared hinit h (Hub.source?_eq_some.mpr ⟨r, hr, rfl⟩)
  have hshape := shaped_of_reach (fun w hw => Hub.idle_of_fresh (hinit w hw))
    (fun w hw => fresh_shaped (hinit w hw)) h id r hr
  have htype : r.mappedRefType = none := by
    by_contra hne
    have hm := hshape.refType.mp hne
    rw [hs] at hm
    cases hm
  simp [EventRow.declared, hsource, htype, hshape.clean (.inl hs)]

/-! ## No call waits for ever -/

/-- Every lock has an update that took it. -/
def Hub.Held (w : Hub) : Prop :=
  ∀ id u, w.txs.holder id = some u → ∃ upd, .update id upd ∈ w.txs.writes u

theorem Hub.Held.clear {w : Hub} (h : w.Held) (t : Tid) : Hub.Held { w with txs := w.txs.clear t } := by
  intro id u hu
  obtain ⟨hu, hne⟩ := Txs.clear_holder_iff.mp hu
  exact (h id u hu).imp fun upd hupd => Txs.mem_clear_writes.mpr ⟨hne, hupd⟩

theorem held_of_reach {ok : Config (system json) → Label (system json) → Prop}
    (hinit : ∀ w, init w → w.Idle) (h : Reach (system json) init ok cfg) : Hub.Held cfg.world := by
  induction h with
  | init h =>
    intro id u hu
    simp [(hinit _ h).txs] at hu
  | step h hok hs ih =>
    cases hs with
    | start ht => exact ih
    | finish ht | crash ht => exact ih.clear _
    | env hw =>
      intro id u
      rw [(env_keeps hw).2.2]
      exact ih id u
    | op ht hw =>
      rw [Config.put_world]
      cases Hub.next_change hw with
      | quiet hq | insert hk hid => exact ih
      | commit | rollback => exact ih.clear _
      | stage =>
        intro id u hu
        exact (ih id u hu).imp fun upd hupd => Txs.mem_push_writes.mpr (.inl hupd)
      | update hrow hfree =>
        intro id u
        rw [Hub.apply_txs]
        exact ih id u
      | queue hrow hfree =>
        intro id u hu
        rw [Txs.push_holder, Txs.lock_holder] at hu
        -- The lock of the queued update is new, and every other lock was there before.
        split at hu
        · cases hu
          subst_vars
          exact ⟨_, Txs.mem_push_writes.mpr (.inr ⟨rfl, rfl⟩)⟩
        · exact (ih id u hu).imp fun upd hupd => Txs.mem_push_writes.mpr (.inl hupd)

theorem free_of_claim {ok : Config (system json) → Label (system json) → Prop}
    (hinit : ∀ w, init w → w.Idle) (h : Reach (system json) init ok cfg) {t : Tid}
    {m : NewEventRow} {id : Uuid} (hd : cfg.Did t (.claimEvent m) (.ok (some id)))
    (hs : Hub.status? cfg.world id = some .received) : (Hub.txs cfg.world).FreeFor t id := by
  unfold Txs.FreeFor
  cases hh : (Hub.txs cfg.world).holder id with
  | none => exact .inl rfl
  | some u =>
    right
    obtain ⟨upd, hupd⟩ := held_of_reach hinit h id u hh
    have hg := (locked_of_reach hinit h).guarded hupd
    rw [hs] at hg
    obtain ⟨n, hn⟩ := did_of_writes hinit h hupd
    obtain ⟨m', hm'⟩ := claim_of_updateTx h hn (Option.some.inj hg).symm
    rw [claim_unique_id (fun w hw => (hinit w hw).keyed) h hd hm']

theorem exists_oldest (w : Hub) (rows : List FailedEventRow) :
    ∃ sorted : List FailedEventRow, sorted.Perm rows ∧ sorted.Pairwise w.Oldest := by
  let createdAt (r : FailedEventRow) : Time := ((w.events.lookup r.id).map (·.createdAt)).getD 0
  refine ⟨rows.mergeSort fun a b => createdAt a ≤ createdAt b, List.mergeSort_perm .., ?_⟩
  refine (List.pairwise_mergeSort ?_ ?_ rows).imp ?_
  · intro a b c hab hbc
    simp only [decide_eq_true_eq] at *
    exact Int.le_trans hab hbc
  · intro a b
    simp only [Bool.or_eq_true, decide_eq_true_eq]
    exact Int.le_total ..
  · intro a b hab ra hra rb hrb
    simp only [decide_eq_true_eq, createdAt] at hab
    rw [Option.mem_def] at hra hrb
    simpa [hra, hrb] using hab

theorem exists_answer {t : Tid} {op : Op V} {w : Hub}
    (hkey : ∀ c k, op = .fetchByBusinessKey c k → (w.byKey c k).isSome)
    (htx : ∀ id u, op = .updateTx id u → w.txs.FreeFor t id)
    (hup : ∀ id u, op = .update id u → w.txs.holder id = none) :
    ∃ (ans : Ans op) (w' : Hub), w.declaredAnswer op ans ∧ Hub.next t op ans w = some w' := by
  cases op with
  | newUuid => exact ⟨0, w, rfl, rfl⟩
  | fetchGate c => exact ⟨.ok (w.gate c), w, rfl, if_pos rfl⟩
  | fetchForRetry c => exact ⟨.ok (w.forRetry c), w, rfl, if_pos rfl⟩
  | claimEvent e =>
    -- The database can refuse the row, and it can find the slot taken.
    by_cases hadm : w.admits e
    · by_cases hk : (w.byKey e.connectorId e.businessKey).isSome
      · refine ⟨.ok none, w, ?_, if_pos hk⟩
        simp only [Hub.admits, Bool.and_eq_true] at hadm
        exact hadm.1.1
      · refine ⟨.ok (some e.id), w.insertEvent e, hadm, if_pos ⟨rfl, ?_, ?_⟩⟩
        · simpa using hk
        · simp only [Hub.admits, Bool.and_eq_true] at hadm
          simpa using hadm.2
    · exact ⟨.error "", w, by simpa [Hub.declaredAnswer] using hadm, rfl⟩
  | fetchByBusinessKey c k =>
    obtain ⟨r, hr⟩ := Option.isSome_iff_exists.mp (hkey c k rfl)
    exact ⟨.ok ⟨r.id, r.status, r.mappedRefId⟩, w, rfl, if_pos (by rw [hr]; rfl)⟩
  | fetchFailed c =>
    obtain ⟨rows, hperm, hsorted⟩ := exists_oldest w ((w.failedRows c).map (·.toFailed))
    exact ⟨.ok rows, w, rfl, if_pos ⟨hperm, hsorted⟩⟩
  | map req => exact ⟨.error ⟨"", ""⟩, w, rfl, rfl⟩
  | begin => exact ⟨.ok (), w, rfl, rfl⟩
  | stage record => exact ⟨.ok (), _, rfl, rfl⟩
  | commit => exact ⟨.ok (), _, rfl, rfl⟩
  | rollback => exact ⟨.ok (), _, rfl, rfl⟩
  | publish ev => exact ⟨(), w, rfl, rfl⟩
  | updateTx id u =>
    by_cases hch : w.checks id u
    · cases htg : w.target id u with
      | none => exact ⟨.ok 0, w, hch, by simp [Hub.next, htg]⟩
      | some row =>
        refine ⟨.ok 1, { w with txs := (w.txs.lock t id).push t (.update id u) }, hch, ?_⟩
        simp only [Hub.next, htg]
        exact if_pos ⟨trivial, htx id u rfl⟩
    · exact ⟨.error "", w, by simpa [Hub.declaredAnswer] using hch, rfl⟩
  | update id u =>
    by_cases hch : w.checks id u
    · cases htg : w.target id u with
      | none => exact ⟨.ok 0, w, hch, by simp [Hub.next, htg]⟩
      | some row =>
        refine ⟨.ok 1, w.apply (.update id u), hch, ?_⟩
        simp only [Hub.next, htg]
        exact if_pos ⟨trivial, hup id u rfl⟩
    · exact ⟨.error "", w, by simpa [Hub.declaredAnswer] using hch, rfl⟩

/-! ## How a delivery ends -/

/-- A statement of the settling transaction that failed. -/
def refused : Event (Sig V) → Bool
  | ⟨.begin, .error _⟩ | ⟨.updateTx .., .error _⟩ | ⟨.stage _, .error _⟩ | ⟨.commit, .error _⟩ => true
  | _ => false

/-- A delivery that claimed its slot returns an error only where its transaction failed. -/
def Stops (r : Except IntegrationError ReceiveOutcome) (h : Past V) : Prop :=
  ∀ err, r = .error err →
    (∃ ev ∈ h, refused ev) ∨ ∀ n id, ⟨.claimEvent n, .ok (some id)⟩ ∉ h

theorem stops_ok {out : ReceiveOutcome} {h : Past V} : Stops (.ok out) h := nofun

theorem settle_stops {eventId : Uuid} {u : EventUpdate} {ev : IntegrationEvent} {h : Past V}
    {Q : Except IntegrationError Unit → Past V → Prop} (hok : ∀ h, Q (.ok ()) h)
    (herr : ∀ err h, (∃ ev ∈ h, refused ev) → Q (.error err) h) :
    Meets (.ofPast fun _ _ => True) (settle eventId u ev).run h Q := by
  simp only [settle, begin, updateTx, stage, commit, publish, sql, ask, Prog.ask, meets_run_bind,
    meets_run_orFail, meets_run_answer, meets_call, meets_ret, ofPast_must, ofPast_may, forall_eq,
    true_and]
  rintro (err | ⟨⟩)
  · exact herr _ _ ⟨_, List.mem_cons_self, rfl⟩
  rintro (err | n)
  · exact herr _ _ ⟨_, List.mem_cons_self, rfl⟩
  rintro (err | ⟨⟩)
  · exact herr _ _ ⟨_, List.mem_cons_self, rfl⟩
  rintro (err | ⟨⟩)
  · exact herr _ _ ⟨_, List.mem_cons_self, rfl⟩
  exact fun _ => hok _

theorem receiveEvent_stops (e : InboundEvent V) :
    Meets (.ofPast fun _ _ => True) (receiveEvent e).run [] Stops := by
  have hnone : ∀ {r} {h : Past V}, (∀ n id, ⟨.claimEvent n, .ok (some id)⟩ ∉ h) → Stops r h :=
    fun hn _ _ => .inr hn
  simp only [receiveEvent, fetchGate, claimEvent, newUuid, fetchByBusinessKey, sql, ask, Prog.ask,
    meets_run_bind, meets_run_ite, meets_run_orFail, meets_run_throw, meets_call,
    meets_ret, ofPast_must, ofPast_may, forall_eq, true_and]
  refine ⟨fun _ => hnone (by simp), fun _ => ⟨fun _ => hnone (by simp), fun _ => ?_⟩⟩
  rintro (err | _ | conn)
  · exact hnone (by simp)
  · exact hnone (by simp)
  simp only [Except.mapError, meets_run_ite, meets_run_bind, meets_run_throw, meets_run_answer,
    meets_run_orFail, meets_call, meets_ret, ofPast_must, ofPast_may, forall_eq, not_not, true_and]
  refine ⟨fun _ => hnone (by simp), fun hc id => ?_⟩
  rintro (err | _ | eventId)
  · exact hnone (by simp)
  · simp only [meets_run_bind, meets_run_orFail, meets_call, meets_ret, ofPast_must, ofPast_may,
      forall_eq, true_and]
    rintro (err | row)
    · exact hnone (by simp)
    · exact stops_ok
  · simp only [deliver, map, ask, Prog.ask, meets_run_bind, meets_run_answer, meets_call, meets_ret,
      ofPast_must, ofPast_may, forall_eq, true_and]
    rintro (rej | mref | reason)
    all_goals
      rw [meets_run_bind]
      exact settle_stops (fun _ => stops_ok) fun _ _ hr _ _ => .inl hr

/-! ## A claimed delivery in a run -/

/-- How `receive_event` stops, as a script that asks for nothing. -/
def stopping (json : JsonCodec V) : Script (system json) where
  must _ _ _ := True
  leave
    | .receiveEvent _, r, h => Stops r h
    | .retryFailed .., _, _ => True

theorem stopping_holds (json : JsonCodec V) : (stopping json).Holds := by
  intro c
  cases c with
  | receiveEvent e =>
    simp only [system, prog]
    exact receiveEvent_stops e
  | retryFailed co cn =>
    simp only [system, prog]
    exact Meets.trivial fun _ _ => trivial

section

variable {e : InboundEvent V} {h : Past V}

theorem receive_length (hk : (script json).Kept (.receiveEvent e) h) : h.length ≤ 9 := by
  cases h with
  | nil => simp
  | cons ev h =>
    have hm : receiveMust e h ev.op := hk.1
    unfold receiveMust at hm
    split at hm
    · simp [hm.2]
    · obtain ⟨conn, -, rfl⟩ := hm
      simp
    · obtain ⟨-, conn, -, rfl⟩ := hm
      simp
    · obtain ⟨-, -, id, h', rfl⟩ := hm
      obtain ⟨-, conn, -, rfl⟩ : receiveMust e h' (.claimEvent (e.newRow id)) := hk.2.1
      simp
    · obtain ⟨d, -, rfl⟩ := hm
      simp [Delivery.claimed]
    · obtain ⟨d, rfl⟩ := hm
      simp [Delivery.mapped, Delivery.claimed]
    · obtain ⟨d, -, -, rfl⟩ := hm
      simp [Delivery.opened, Delivery.mapped, Delivery.claimed]
    · obtain ⟨d, n, -, rfl⟩ := hm
      simp [Delivery.updated, Delivery.opened, Delivery.mapped, Delivery.claimed]
    · obtain ⟨d, n, rfl⟩ := hm
      simp [Delivery.staged, Delivery.updated, Delivery.opened, Delivery.mapped, Delivery.claimed]
    · obtain ⟨d, n, -, rfl⟩ := hm
      simp [Delivery.committed, Delivery.staged, Delivery.updated, Delivery.opened,
        Delivery.mapped, Delivery.claimed]
    all_goals exact hm.elim

theorem event_eq (hk : (script json).Kept (.receiveEvent e) h) {ev ev' : Event (Sig V)}
    (hev : ev ∈ h) (hev' : ev' ∈ h)
    (hplace : ∀ pre pre', receiveMust e pre ev.op → receiveMust e pre' ev'.op →
      pre.length = pre'.length) : ev = ev' := by
  obtain ⟨pre, hpre, hm⟩ := hk.of_mem hev
  obtain ⟨pre', hpre', hm'⟩ := hk.of_mem hev'
  have hlen : (ev :: pre).length = (ev' :: pre').length := by
    simp only [List.length_cons, hplace pre pre' hm hm']
  have hsuf := List.suffix_of_suffix_length_le hpre hpre' (Nat.le_of_eq hlen)
  exact (List.cons.inj (hsuf.eq_of_length hlen)).1

theorem claim_eq (hk : (script json).Kept (.receiveEvent e) h) {n n' : NewEventRow}
    {ans ans' : Except DbError (Option Uuid)} (hn : ⟨.claimEvent n, ans⟩ ∈ h)
    (hn' : ⟨.claimEvent n', ans'⟩ ∈ h) : ans = ans' := by
  have heq := event_eq hk hn hn' ?_
  · cases heq
    rfl
  · rintro _ _ ⟨-, _, -, rfl⟩ ⟨-, _, -, rfl⟩
    rfl

theorem updateTx_eq (hk : (script json).Kept (.receiveEvent e) h) {id id' : Uuid}
    {u u' : EventUpdate} {ans ans' : Except DbError Nat} (hu : ⟨.updateTx id u, ans⟩ ∈ h)
    (hu' : ⟨.updateTx id' u', ans'⟩ ∈ h) : ans = ans' := by
  have heq := event_eq hk hu hu' ?_
  · cases heq
    rfl
  · rintro _ _ ⟨d, -, -, rfl⟩ ⟨d', -, -, rfl⟩
    rfl

end

section

variable {tr : List (Taken (system json))} {t : Tid} {e : InboundEvent V} {n : NewEventRow} {id : Uuid}

theorem kept_of_receive {ok : Config (system json) → Label (system json) → Prop}
    (h : Reach (system json) init ok cfg) (hc : cfg.call? t = some (.receiveEvent e)) :
    (script json).Kept (.receiveEvent e) (cfg.events t) := by
  have hk := (script_holds json).kept h t
  rw [hc] at hk
  exact hk

/-- A delivery that claimed its slot can always go on, until it returns. -/
theorem claimed_goes_on (hinit : ∀ w, init w → w.Fresh) (h : Reach (system json) init Declared cfg)
    (hclaim : cfg.Did t (.claimEvent n) (.ok (some id)))
    {p : Prog (Sig V) (Res (.receiveEvent e))} (ht : cfg.threads t = .running (.receiveEvent e) p) :
    (∃ r, p = .ret r) ∨ ∃ op ans cfg', Declared cfg (.op t op ans) ∧
      Step (system json) cfg (.op t op ans) cfg' := by
  have hidle : ∀ w, init w → w.Idle := fun w hw => Hub.idle_of_fresh (hinit w hw)
  have hc : cfg.call? t = some (.receiveEvent e) := by rw [Config.call?, ht, Thread.call?]
  have hev := mem_events.mpr hclaim
  cases p with
  | ret r => exact .inl ⟨r, rfl⟩
  | call op k =>
    right
    have hm : receiveMust e (cfg.events t) op := (script_holds json).must h ht
    -- Only the update can wait, and nobody else holds its row.
    have hkey : ∀ c k, op = .fetchByBusinessKey c k → (Hub.byKey cfg.world c k).isSome := by
      rintro c k rfl
      obtain ⟨-, -, id', h', hpast⟩ := hm
      have heq := claim_eq (kept_of_receive h hc) hev (hpast ▸ List.mem_cons_self)
      cases heq
    have htx : ∀ id u, op = .updateTx id u → (Hub.txs cfg.world).FreeFor t id := by
      rintro id' u rfl
      obtain ⟨d, rfl, -, hpast⟩ := hm
      have hid : id = d.eventId := by
        simp only [hpast, Delivery.opened, Delivery.mapped, Delivery.claimed] at hev
        simp_all
      subst hid
      refine free_of_claim hidle h hclaim ((received_of_claim hidle h hclaim).resolve_left ?_)
      rw [← mem_events, hpast]
      simp [Delivery.opened, Delivery.mapped, Delivery.claimed]
    have hup : ∀ id u, op = .update id u → (Hub.txs cfg.world).holder id = none := by
      rintro id' u rfl
      exact hm.elim
    obtain ⟨ans, w, hans, hw⟩ := exists_answer hkey htx hup
    exact ⟨op, ans, _, hans, .op ht hw⟩

theorem checks_iff_fits (hinit : ∀ w, init w → w.Fresh) (h : Reach (system json) init Declared cfg)
    {d : Delivery} (hs : Hub.status? cfg.world d.eventId = some .received) :
    Hub.checks cfg.world d.eventId (d.update e) = fits d.ans := by
  obtain ⟨row, hrow, hst⟩ := Option.map_eq_some_iff.mp hs
  have htarget : Hub.target cfg.world d.eventId (d.update e) = some row :=
    Hub.target_eq_some.mpr ⟨hrow, hst.trans (delivery_update_guard d e).symm⟩
  rw [Hub.checks, htarget, Option.all_some, set_declared (received_declared hinit h hrow hst),
    delivery_declared]

theorem updateTx_iff_fits (hinit : ∀ w, init w → w.Fresh)
    (h : Run (system json) init Declared tr cfg) (hc : cfg.call? t = some (.receiveEvent e))
    {eventId : Uuid} {u : EventUpdate} {ans : Except DbError Nat}
    (hd : cfg.Did t (.updateTx eventId u) ans) :
    ∃ d : Delivery, eventId = d.eventId ∧ (∀ ev ∈ d.mapped e, ev ∈ cfg.events t) ∧
      ans.toBool = fits d.ans := by
  have hidle : ∀ w, init w → w.Idle := fun w hw => Hub.idle_of_fresh (hinit w hw)
  obtain ⟨pre, hpre, d, rfl, rfl, rfl⟩ := (script_holds json).past h.reach hc hd
  obtain ⟨newer, s, older, rfl, hl, hpast⟩ := h.taken_of_event hpre
  obtain ⟨hold, hok, -⟩ := h.split
  refine ⟨d, rfl, fun ev hev => hpre.subset (by simp [Delivery.opened, hev]), ?_⟩
  have hclaim : s.before.Did t (.claimEvent (e.newRow d.newId)) (.ok (some d.eventId)) :=
    mem_events.mp (by simp [hpast, Delivery.opened, Delivery.mapped, Delivery.claimed])
  have hcommit : ¬s.before.Did t .commit (.ok ()) := by
    simp [← mem_events, hpast, Delivery.opened, Delivery.mapped, Delivery.claimed]
  have hrec := (received_of_claim hidle hold.reach hclaim).resolve_left hcommit
  rw [hl] at hok
  rw [← checks_iff_fits (e := e) hinit hold.reach hrec]
  cases ans with
  | ok n => simpa [Declared, Hub.declaredAnswer, Except.toBool] using hok
  | error err => simpa [Declared, Hub.declaredAnswer, Except.toBool] using hok

/-- The delivery of row `id` is over: the call returned the answer's status, its commit moved the row
there, and the row does not wait any more. -/
structure Recorded (tr : List (Taken (system json))) (cfg : Config (system json)) (t : Tid) (id : Uuid)
    (ans : Except MapRejected MapOutcome) (r : Except IntegrationError ReceiveOutcome) : Prop where
  returned : ∃ out, r = .ok out ∧ out.eventId = id ∧ out.status = answerStatus ans ∧
    out.duplicate = false
  row : ∃ s ∈ tr, s.label = .op t .commit (.ok ()) ∧
    Hub.status? s.after.world id = some (answerStatus ans)
  left : Hub.status? cfg.world id ≠ some .received

theorem left_received (hinit : ∀ w, init w → w.Idle) {ok : Config (system json) → Label (system json) → Prop}
    {newer older : List (Taken (system json))} {s : Taken (system json)}
    (h : Run (system json) init ok (newer ++ s :: older) cfg) {a : IntegrationStatus}
    (ha : Hub.status? s.after.world id = some a) (hne : a ≠ .received) :
    Hub.status? cfg.world id ≠ some .received := by
  have hkeep := h.keeps (P := fun c => ∃ a, Hub.status? c.world id = some a ∧ a ≠ .received)
    ⟨a, ha, hne⟩ ?_
  · obtain ⟨⟨b, hb, hbne⟩, -⟩ := hkeep
    rw [hb]
    simpa using hbne
  · rintro c l c' hc - hst ⟨a, ha, hne⟩
    cases status_step hinit hc hst id with
    | kept hk => exact ⟨a, hk.trans ha, hne⟩
    | inserted hn _ => rw [ha] at hn; cases hn
    | moved _ hb hedge =>
      refine ⟨_, hb, ?_⟩
      cases hedge <;> simp

theorem recorded_of_ok (h : Run (system json) Hub.Fresh Declared tr cfg)
    (hclaim : cfg.Did t (.claimEvent n) (.ok (some id))) {out : ReceiveOutcome}
    (ht : cfg.threads t = .done (.receiveEvent e) (.ok out)) :
    ∃ req ans, cfg.Did t (.map req) ans ∧ fits ans ∧ Recorded tr cfg t id ans (.ok out) := by
  have hc : cfg.call? t = some (.receiveEvent e) := by rw [Config.call?, ht, Thread.call?]
  have hk := kept_of_receive h.reach hc
  have hleave : receiveLeave e (cfg.events t) (.ok out) := (script_holds json).leave h.reach ht
  have hdup : out.duplicate = false := by
    by_contra hdup
    exact not_claimed_of_duplicate h.reach ht (Bool.of_not_eq_false hdup) hclaim
  obtain ⟨s, hs, hl, -, row, hrow, hst, -⟩ := settled_of_done (fun _ hw => hw) h ht hdup
  simp only [receiveLeave, hdup, Bool.false_eq_true, if_false] at hleave
  obtain ⟨d, m, ev, rfl, hev⟩ := hleave
  have hid : id = d.eventId := by
    have hclaim' := mem_events.mpr hclaim
    simp only [hev, Delivery.committed, Delivery.staged, Delivery.updated, Delivery.opened,
      Delivery.mapped, Delivery.claimed] at hclaim'
    simp_all
  have hmap : cfg.Did t (.map (e.mapRequest d.conn.kind)) d.ans :=
    mem_events.mp (by simp [hev, Delivery.committed, Delivery.staged, Delivery.updated,
      Delivery.opened, Delivery.mapped])
  have hupd : cfg.Did t (.updateTx d.eventId (d.update e)) (.ok m) :=
    mem_events.mp (by simp [hev, Delivery.committed, Delivery.staged, Delivery.updated])
  obtain ⟨d', -, hd', hfits⟩ := updateTx_iff_fits (fun _ hw => hw) h hc hupd
  -- The target is asked once, so both deliveries have its one answer.
  have hans : d'.ans = d.ans := by
    have hmap' := hd' _ (List.mem_cons_self ..)
    simp only [hev, Delivery.committed, Delivery.staged, Delivery.updated, Delivery.opened,
      Delivery.mapped, Delivery.claimed] at hmap'
    simp_all
  have hafter : Hub.status? s.after.world id = some (answerStatus d.ans) := by
    rw [d.outcome_eventId, ← hid] at hrow
    rw [Hub.status?, hrow, Option.map_some, hst, outcome_status]
  refine ⟨_, d.ans, hmap, hans ▸ hfits.symm, ?_⟩
  refine ⟨⟨_, rfl, ?_, outcome_status d, hdup⟩, ⟨s, hs, hl, hafter⟩, ?_⟩
  · rw [d.outcome_eventId, hid]
  · obtain ⟨older, newer, rfl⟩ := List.append_of_mem hs
    refine left_received (fun _ hw => Hub.idle_of_fresh hw) h hafter ?_
    unfold answerStatus
    split <;> simp

theorem received_of_error (h : Run (system json) Hub.Fresh Declared tr cfg)
    (hclaim : cfg.Did t (.claimEvent n) (.ok (some id))) {err : IntegrationError}
    (ht : cfg.threads t = .done (.receiveEvent e) (.error err)) :
    ∃ req ans, cfg.Did t (.map req) ans ∧ fits ans = false ∧
      Hub.status? cfg.world id = some .received := by
  have hc : cfg.call? t = some (.receiveEvent e) := by rw [Config.call?, ht, Thread.call?]
  have hk := kept_of_receive h.reach hc
  have hstop : Stops (.error err) (cfg.events t) := (stopping_holds json).leave h.reach ht
  rcases hstop err rfl with ⟨⟨op, ans⟩, hev, href⟩ | hnone
  · obtain ⟨s, -, hl, -, hok, -⟩ := h.taken_of_mem (mem_events.mp hev)
    rw [hl] at hok
    unfold refused at href
    split at href
    case h_2 heq =>
      cases heq
      obtain ⟨d, -, hd, hfits⟩ := updateTx_iff_fits (fun _ hw => hw) h hc (mem_events.mp hev)
      refine ⟨_, d.ans, mem_events.mp (hd _ (List.mem_cons_self ..)), hfits.symm, ?_⟩
      refine (received_of_claim (fun _ hw => Hub.idle_of_fresh hw) h.reach hclaim).resolve_left ?_
      intro hcommit
      obtain ⟨pre, hpre, d', m, rfl⟩ := (script_holds json).past h.reach hc hcommit
      have hupd : ⟨.updateTx d'.eventId (d'.update e), .ok m⟩ ∈ cfg.events t :=
        hpre.subset (by simp [Delivery.staged, Delivery.updated])
      cases updateTx_eq hk hev hupd
    case h_5 => cases href
    all_goals
      rename_i heq
      cases heq
      simp [Declared, Hub.declaredAnswer] at hok
  · exact (hnone n id (mem_events.mpr hclaim)).elim

/-- **Intake records an answer of the target exactly when its string fits the column.** A delivery
that claimed its slot never gets stuck, and it returns after nine operations at most. -/
theorem answer_recorded_iff (h : Run (system json) Hub.Fresh Declared tr cfg)
    (hc : cfg.call? t = some (.receiveEvent e))
    (hclaim : cfg.Did t (.claimEvent n) (.ok (some id))) :
    (cfg.events t).length ≤ 9 ∧
    (∀ p, cfg.threads t = .running (.receiveEvent e) p →
      (∃ r, p = .ret r) ∨ ∃ op ans cfg', Declared cfg (.op t op ans) ∧
        Step (system json) cfg (.op t op ans) cfg') ∧
    ∀ r, cfg.threads t = .done (.receiveEvent e) r → ∃ req ans, cfg.Did t (.map req) ans ∧
      (Recorded tr cfg t id ans r ↔ fits ans) ∧
      (fits ans = false → Hub.status? cfg.world id = some .received) := by
  refine ⟨receive_length (kept_of_receive h.reach hc),
    fun p ht => claimed_goes_on (fun _ hw => hw) h.reach hclaim ht, ?_⟩
  rintro (err | out) ht
  · obtain ⟨req, ans, hmap, hfits, hrec⟩ := received_of_error h hclaim ht
    refine ⟨req, ans, hmap, ⟨fun hr => ?_, fun hf => ?_⟩, fun _ => hrec⟩
    · exact (hr.left hrec).elim
    · rw [hfits] at hf
      cases hf
  · obtain ⟨req, ans, hmap, hfits, hr⟩ := recorded_of_ok h hclaim ht
    refine ⟨req, ans, hmap, ⟨fun _ => hfits, fun _ => hr⟩, fun hf => ?_⟩
    rw [hfits] at hf
    cases hf

end

/-! A payment that the target maps to a record with a reference type of 61 characters. -/

def longType : String := String.ofList (List.replicate 61 'x')

def tooLong : DbError := "ck_integration_events_mapped_ref_type_max_length__max_length"

def mappedPayment (refType : String) : Delivery :=
  ⟨⟨.paymentGateway, .active⟩, gateway_active, 10, 10, .ok (.mapped ⟨refType, 77⟩)⟩

def longPayment : List (Label (system textJson)) :=
  .start 1 (.receiveEvent payment) :: ((mappedPayment longType).opened payment).labels 1 ++
    [.op 1 (.updateTx 10 (.markMapped longType 77)) (.error tooLong), .finish 1]

theorem longPayment_runs : (replay Declared (Config.init twoConnectors) longPayment).isSome := by
  decide

def stranded : Config (system textJson) :=
  (replay Declared (Config.init twoConnectors) longPayment).get longPayment_runs

/-! The delivery returned an error, and its row waits for ever. -/

theorem long_type_stranded : ∃ tr, Run (system textJson) Hub.Fresh Declared tr stranded ∧
    stranded.Did 1 (.claimEvent (payment.newRow 10)) (.ok (some 10)) ∧
    stranded.Did 1 (.map (payment.mapRequest .paymentGateway)) (.ok (.mapped ⟨longType, 77⟩)) ∧
    stranded.threads 1 = .done (.receiveEvent payment) (.error (.db tooLong)) ∧
    Hub.status? stranded.world 10 = some .received := by
  have hr : Reach (system textJson) Hub.Fresh Declared stranded :=
    .of_replay twoConnectors_fresh longPayment longPayment_runs
  obtain ⟨tr, htr⟩ := hr.run
  refine ⟨tr, htr, ?_, ?_, rfl, by decide⟩
  all_goals
    refine mem_hist_of_replay longPayment_runs ?_
    simp [longPayment, mappedPayment, Past.labels, Delivery.opened, Delivery.mapped, Delivery.claimed]

/-- The same payment with a reference type that fits. -/
def shortPayment : List (Label (system textJson)) := (mappedPayment "payment").labels payment 1

theorem shortPayment_runs : (replay Declared (Config.init twoConnectors) shortPayment).isSome := by
  decide

def shortMapped : Config (system textJson) :=
  (replay Declared (Config.init twoConnectors) shortPayment).get shortPayment_runs

theorem answer_recorded_iff_short : ∃ tr, Run (system textJson) Hub.Fresh Declared tr shortMapped ∧
    ∃ r, shortMapped.threads 1 = .done (.receiveEvent payment) r ∧
      ∃ req ans, shortMapped.Did 1 (.map req) ans ∧ (Recorded tr shortMapped 1 10 ans r ↔ fits ans) ∧
        (fits ans = false → Hub.status? shortMapped.world 10 = some .received) := by
  have hr : Reach (system textJson) Hub.Fresh Declared shortMapped :=
    .of_replay twoConnectors_fresh shortPayment shortPayment_runs
  obtain ⟨tr, htr⟩ := hr.run
  have hclaim : shortMapped.Did 1 (.claimEvent (payment.newRow 10)) (.ok (some 10)) :=
    mem_hist_of_replay shortPayment_runs (by simp [shortPayment, Delivery.labels, Past.labels,
      Delivery.committed, Delivery.staged, Delivery.updated, Delivery.opened, Delivery.mapped,
      Delivery.claimed, mappedPayment])
  exact ⟨tr, htr, _, rfl, (answer_recorded_iff htr rfl hclaim).2.2 _ rfl⟩

end BackboneIntegrations.Intake
