import BackboneIntegrations.Intake.Calls

/-!
# Exactly-once intake

The unique index decides one winner for each `(connector_id, business_key)`, in every
interleaving of the calls and with crashes between their statements.
-/

open Interleave

namespace BackboneIntegrations.Intake

variable {V : Type} {json : JsonCodec V} {init : Hub → Prop}
  {ok : Config (system json) → Label (system json) → Prop} {cfg cfg' : Config (system json)}

/-! ## What an answered statement says about the rows -/

/-- A fact about the rows that stays true from the answer on. -/
def Told (w : Hub) : Label (system json) → Prop
  | .op _ (.claimEvent n) (.ok (some id)) => w.source? id = some n ∧ n.id = id
  | .op _ (.fetchByBusinessKey c k) (.ok row) =>
    ∃ n, w.source? row.id = some n ∧ n.connectorId = c ∧ n.businessKey = k
  | .op _ (.fetchFailed c) (.ok rows) => ∀ row ∈ rows, ∃ n, w.source? row.id = some n ∧
      n = ⟨row.id, c, row.eventType, row.externalId, row.businessKey, row.payload⟩
  | _ => True

theorem told_mono {w w' : Hub} (hw : ∀ id n, w.source? id = some n → w'.source? id = some n)
    {l : Label (system json)} (h : Told w l) : Told w' l := by
  unfold Told at *
  split
  · exact ⟨hw _ _ h.1, h.2⟩
  · obtain ⟨n, hn, hp⟩ := h
    exact ⟨n, hw _ _ hn, hp⟩
  · intro row hrow
    obtain ⟨n, hn, hp⟩ := h row hrow
    exact ⟨n, hw _ _ hn, hp⟩
  · trivial

theorem told_next {t : Tid} {op : Op V} {ans : Ans op} {w w' : Hub} (hw : w.Keyed)
    (h : Hub.next t op ans w = some w') :
    Told w' (.op t op ans : Label (system json)) := by
  unfold Told
  -- The claim, the read under the key and the list of failed rows: no other answer names a row.
  split
  · rename_i heq
    cases heq
    simp only [Hub.next, Option.ite_none_right_eq_some, Option.some.injEq] at h
    obtain ⟨⟨rfl, -, -⟩, rfl⟩ := h
    exact ⟨by rw [Hub.insertEvent_source?, if_pos rfl], rfl⟩
  · rename_i c k row heq
    cases heq
    simp only [Hub.next, Option.ite_none_right_eq_some, Option.some.injEq] at h
    obtain ⟨hr, rfl⟩ := h
    obtain ⟨r, hrow, rfl⟩ := Option.map_eq_some_iff.mp hr
    obtain ⟨id, hid, hc, hk⟩ := Hub.byKey_eq_some hrow
    have hs : w.source? id = some r.source := by simp [Hub.source?, hid]
    obtain rfl : r.id = id := hw.id_eq id _ hs
    exact ⟨r.source, hs, hc, hk⟩
  · rename_i c rows heq
    cases heq
    simp only [Hub.next, Option.ite_none_right_eq_some, Option.some.injEq] at h
    obtain ⟨⟨hp, -⟩, rfl⟩ := h
    intro row hrow
    obtain ⟨r, hr, rfl⟩ := List.mem_map.mp (hp.mem_iff.mp hrow)
    simp only [Hub.failedRows, List.mem_filter, decide_eq_true_eq, Table.mem_rows] at hr
    obtain ⟨⟨id, hid⟩, rfl, -⟩ := hr
    have hs : w.source? id = some r.source := by simp [Hub.source?, hid]
    obtain rfl : r.id = id := hw.id_eq id _ hs
    exact ⟨r.source, hs, rfl⟩
  · trivial

theorem told_of_reach (hinit : ∀ w, init w → w.Keyed) (h : Reach (system json) init ok cfg) :
    ∀ l ∈ cfg.hist, Told cfg.world l := by
  refine h.mem_hist (P := fun l w => Told w l) (fun h hok hs => ?_) fun h hok hs ht => ?_
  · cases hs with
    | op ht hw => exact told_next (keyed_of_reach hinit h) hw
    | _ => trivial
  · exact told_mono (fun id n => source?_mono hs) ht

/-! ## One winner -/

theorem source?_of_claim (hinit : ∀ w, init w → w.Keyed) (h : Reach (system json) init ok cfg)
    {t : Tid} {n : NewEventRow} {id : Uuid}
    (hl : cfg.Did t (.claimEvent n) (.ok (some id))) :
    Hub.source? cfg.world id = some n ∧ n.id = id :=
  told_of_reach hinit h _ hl

/-- Two won claims for one pair are one claim. -/
theorem claim_unique (hinit : ∀ w, init w → w.Keyed) (h : Reach (system json) init ok cfg)
    {t u : Tid} {n n' : NewEventRow} {id id' : Uuid}
    (ht : cfg.Did t (.claimEvent n) (.ok (some id)))
    (hu : cfg.Did u (.claimEvent n') (.ok (some id')))
    (hc : n.connectorId = n'.connectorId) (hk : n.businessKey = n'.businessKey) : t = u := by
  induction h with
  | init h => cases ht
  | @step cfg l cfg' h hok hs ih =>
    -- A claim that wins now sees no row with its key, so nobody won that key before.
    have hfresh : ∀ {v m m' x x'}, cfg.Did v (.claimEvent m) (.ok (some x)) →
        l = .op t (.claimEvent m') (.ok (some x')) ∨ l = .op u (.claimEvent m') (.ok (some x')) →
        m.connectorId = m'.connectorId → m.businessKey = m'.businessKey → False := by
      intro v m m' x x' hv hl hc hk
      have hm := (source?_of_claim hinit h hv).1
      have hnew : Hub.byKey cfg.world m'.connectorId m'.businessKey = none := by
        rcases hl with rfl | rfl <;> cases hs with
        | op ht hw =>
          simp only [system, Hub.next, Option.ite_none_right_eq_some] at hw
          exact hw.1.2.1
      exact Hub.byKey_eq_none.mp hnew x m hm ⟨hc, hk⟩
    rcases hs.did.mp ht with rfl | ht <;> rcases hs.did.mp hu with heq | hu
    · cases heq
      rfl
    · exact (hfresh hu (.inl rfl) hc.symm hk.symm).elim
    · exact (hfresh ht (.inr heq.symm) hc hk).elim
    · exact ih ht hu

theorem claim_of_map (h : Reach (system json) init ok cfg) {t : Tid} {req : MapRequest V}
    {ans : Except MapRejected MapOutcome} (hl : cfg.Did t (.map req) ans)
    {e : InboundEvent V} (hc : cfg.call? t = some (.receiveEvent e)) :
    ∃ n id, cfg.Did t (.claimEvent n) (.ok (some id)) ∧
      n.connectorId = e.connectorId ∧ n.businessKey = e.businessKey := by
  obtain ⟨pre, hpre, d, -, rfl⟩ := (script_holds json).past h hc hl
  refine ⟨e.newRow d.newId, d.eventId, mem_events.mp (hpre.subset ?_), rfl, rfl⟩
  simp [Delivery.claimed]

theorem source?_origin {w0 : Hub} (h : Reach (system json) (· = w0) ok cfg) {id : Uuid}
    {n : NewEventRow} (hn : Hub.source? cfg.world id = some n) :
    w0.source? id = some n ∨ ∃ u, cfg.Did u (.claimEvent n) (.ok (some id)) := by
  induction h with
  | init h =>
    subst h
    exact .inl hn
  | step _ _ hs ih =>
    rcases source?_step hs with he | ⟨u, e, rfl, -, -, he⟩
    · rw [he] at hn
      exact (ih hn).imp_right fun ⟨u, hu⟩ => ⟨u, hs.did.mpr (.inr hu)⟩
    · rw [he, Hub.insertEvent_source?] at hn
      split at hn
      · cases hn
        subst_vars
        exact .inr ⟨u, hs.did.mpr (.inl rfl)⟩
      · exact (ih hn).imp_right fun ⟨u, hu⟩ => ⟨u, hs.did.mpr (.inr hu)⟩

/-! ## What a delivery answers -/

theorem row_of_returned (hinit : ∀ w, init w → w.Keyed) (h : Reach (system json) init ok cfg)
    {t : Tid} {e : InboundEvent V} {out : ReceiveOutcome}
    (hd : cfg.threads t = .done (.receiveEvent e) (.ok out)) :
    ∃ n, Hub.source? cfg.world out.eventId = some n ∧ n.connectorId = e.connectorId ∧
      n.businessKey = e.businessKey ∧ (out.duplicate = false →
        cfg.Did t (.claimEvent n) (.ok (some out.eventId))) := by
  have hl : receiveLeave e (cfg.events t) (.ok out) := (script_holds json).leave h hd
  cases hdup : out.duplicate with
  | true =>
    simp only [receiveLeave, hdup, if_true] at hl
    obtain ⟨row, id, conn, hid, hev⟩ := hl
    have hdid : cfg.Did t (.fetchByBusinessKey e.connectorId e.businessKey) (.ok row) :=
      mem_events.mp (by rw [hev]; simp)
    obtain ⟨n, hn, hc, hk⟩ := told_of_reach hinit h _ hdid
    exact ⟨n, hid ▸ hn, hc, hk, nofun⟩
  | false =>
    simp only [receiveLeave, hdup, Bool.false_eq_true, if_false] at hl
    obtain ⟨d, m, ev, hout, hev⟩ := hl
    have hid : out.eventId = d.eventId := by rw [hout, d.outcome_eventId]
    have hdid : cfg.Did t (.claimEvent (e.newRow d.newId)) (.ok (some d.eventId)) := by
      refine mem_events.mp ?_
      rw [hev]
      simp [Delivery.committed, Delivery.staged, Delivery.updated, Delivery.opened,
        Delivery.mapped, Delivery.claimed]
    obtain ⟨hn, -⟩ := source?_of_claim hinit h hdid
    exact ⟨_, hid ▸ hn, rfl, rfl, fun _ => hid ▸ hdid⟩

theorem not_claimed_of_duplicate (h : Reach (system json) init ok cfg) {t : Tid}
    {e : InboundEvent V} {out : ReceiveOutcome}
    (hd : cfg.threads t = .done (.receiveEvent e) (.ok out)) (hdup : out.duplicate = true)
    {n : NewEventRow} {id : Uuid} : ¬cfg.Did t (.claimEvent n) (.ok (some id)) := by
  have hl : receiveLeave e (cfg.events t) (.ok out) := (script_holds json).leave h hd
  simp only [receiveLeave, hdup, if_true] at hl
  obtain ⟨row, id', conn, -, hev⟩ := hl
  intro hdid
  have := mem_events.mpr hdid
  rw [hev] at this
  simp at this

/-! ## How often the target is asked -/

def isMap : Event (Sig V) → Bool
  | ⟨.map _, _⟩ => true
  | _ => false

theorem receive_maps_once {e : InboundEvent V} {h : Past V}
    (hk : (script json).Kept (.receiveEvent e) h) : h.countP isMap ≤ 1 := by
  induction h with
  | nil => simp
  | cons ev h ih =>
    rw [List.countP_cons]
    split
    · rename_i hmap
      obtain ⟨op, ans⟩ := ev
      cases op with
      | map req =>
        obtain ⟨d, -, rfl⟩ : receiveMust e h (.map req) := hk.1
        simp [Delivery.claimed, isMap]
      | _ => cases hmap
    · exact ih hk.2

/-- The calls of the target port by `receive_event` for one pair. -/
def invokes (cfg : Config (system json)) (connectorId : Uuid) (businessKey : String) :
    Label (system json) → Bool
  | .op t (.map _) _ =>
    match cfg.call? t with
    | some (.receiveEvent e) => e.connectorId = connectorId ∧ e.businessKey = businessKey
    | _ => false
  | _ => false

theorem invokes_iff {c : Uuid} {k : String} {l : Label (system json)} :
    invokes cfg c k l = true ↔ ∃ t req ans e, l = .op t (.map req) ans ∧
      cfg.call? t = some (.receiveEvent e) ∧ e.connectorId = c ∧ e.businessKey = k := by
  unfold invokes
  constructor
  · intro h
    split at h
    · split at h
      · exact ⟨_, _, _, _, rfl, ‹_›, of_decide_eq_true h⟩
      · cases h
    · cases h
  · rintro ⟨t, req, ans, e, rfl, hc, rfl, rfl⟩
    simp [hc]

theorem invokes_le_one (hinit : ∀ w, init w → w.Keyed) (h : Reach (system json) init ok cfg)
    (c : Uuid) (k : String) : cfg.hist.countP (invokes cfg c k) ≤ 1 := by
  by_cases hex : ∃ l ∈ cfg.hist, invokes cfg c k l = true
  · obtain ⟨l, hl, hi⟩ := hex
    obtain ⟨t, req, ans, e, rfl, hc, rfl, rfl⟩ := invokes_iff.mp hi
    obtain ⟨n, id, hn, hnc, hnk⟩ := claim_of_map h hl hc
    -- Everyone who asks for this pair won its claim, so only `t` does.
    calc cfg.hist.countP (invokes cfg e.connectorId e.businessKey)
        ≤ cfg.hist.countP fun l => ((l.event? t).map isMap).getD false := by
          refine List.countP_mono_left fun l' hl' hi' => ?_
          obtain ⟨u, req', ans', e', rfl, hc', he, hk⟩ := invokes_iff.mp hi'
          obtain ⟨n', id', hn', hnc', hnk'⟩ := claim_of_map h hl' hc'
          obtain rfl : u = t := claim_unique hinit h hn' hn (by simp [*]) (by simp [*])
          simp [Label.event?, isMap]
      _ = (cfg.events t).countP isMap := (List.countP_filterMap ..).symm
      _ ≤ 1 := by
          have hk := (script_holds json).kept h t
          rw [hc] at hk
          exact receive_maps_once hk
  · rw [List.countP_eq_zero.mpr]
    · exact Nat.zero_le 1
    · exact fun l hl hi => hex ⟨l, hl, hi⟩

/-! ## The theorem -/

/-- **Exactly-once intake.** -/
theorem exactly_once_intake {w0 : Hub} (hw : w0.Keyed)
    (h : Reach (system json) (· = w0) (fun _ _ => True) cfg) :
    (∀ id id' r r', AList.lookup id (Hub.events cfg.world) = some r →
      AList.lookup id' (Hub.events cfg.world) = some r' →
      r.connectorId = r'.connectorId → r.businessKey = r'.businessKey → id = id') ∧
    (∀ c k, cfg.hist.countP (invokes cfg c k) ≤ 1) ∧
    ∀ t e out, cfg.threads t = .done (.receiveEvent e) (.ok out) →
      (∀ u e' out', cfg.threads u = .done (.receiveEvent e') (.ok out') →
        (e.connectorId = e'.connectorId ∧ e.businessKey = e'.businessKey ↔
          out.eventId = out'.eventId) ∧
        (e.connectorId = e'.connectorId → e.businessKey = e'.businessKey →
          out.duplicate = false → out'.duplicate = false → t = u)) ∧
      (out.duplicate = true →
        (∃ n, w0.source? out.eventId = some n ∧ n.connectorId = e.connectorId ∧
          n.businessKey = e.businessKey) ∨
        ∃ u n, u ≠ t ∧ cfg.Did u (.claimEvent n) (.ok (some out.eventId)) ∧
          n.connectorId = e.connectorId ∧ n.businessKey = e.businessKey) := by
  have hinit : ∀ w, w = w0 → w.Keyed := by
    rintro w rfl
    exact hw
  have hkeyed := keyed_of_reach hinit h
  refine ⟨fun id id' r r' hr hr' hc hk => ?_, invokes_le_one hinit h, fun t e out hd => ⟨?_, ?_⟩⟩
  · exact hkeyed.unique id id' r.source r'.source (Hub.source?_eq_some.mpr ⟨r, hr, rfl⟩)
      (Hub.source?_eq_some.mpr ⟨r', hr', rfl⟩) hc hk
  · intro u e' out' hd'
    obtain ⟨n, hn, hnc, hnk, hclaim⟩ := row_of_returned hinit h hd
    obtain ⟨n', hn', hnc', hnk', hclaim'⟩ := row_of_returned hinit h hd'
    refine ⟨⟨fun ⟨hc, hk⟩ => ?_, fun hid => ?_⟩, fun hc hk hf hf' => ?_⟩
    · exact hkeyed.unique _ _ n n' hn hn' (by simp [*]) (by simp [*])
    · obtain rfl : n = n' := by simpa [hid, hn'] using hn.symm
      exact ⟨hnc.symm.trans hnc', hnk.symm.trans hnk'⟩
    · exact claim_unique hinit h (hclaim hf) (hclaim' hf') (by simp [*]) (by simp [*])
  · intro hdup
    obtain ⟨n, hn, hnc, hnk, -⟩ := row_of_returned hinit h hd
    -- The row of a duplicate was there from the start, or another call claimed it.
    refine (source?_origin h hn).imp (fun hn => ⟨n, hn, hnc, hnk⟩) fun ⟨u, hu⟩ => ?_
    refine ⟨u, n, ?_, hu, hnc, hnk⟩
    rintro rfl
    exact not_claimed_of_duplicate h hd hdup hu

/-! Two deliveries of one payment: the second claims first. -/

def payment : InboundEvent String := ⟨7, 1, "payment.settled", "ext-1", "order-1:settled", "1", "1"⟩

def textJson : JsonCodec String := ⟨"null", some⟩

theorem gateway_active : (⟨.paymentGateway, .active⟩ : ConnectorGateRow).status = .active := rfl

def settledPayment : Delivery :=
  ⟨⟨.paymentGateway, .active⟩, gateway_active, 10, 10, .ok (.mapped ⟨"payment", 77⟩)⟩

def lostClaim : Past String :=
  [⟨.fetchByBusinessKey 1 "order-1:settled", .ok ⟨10, .received, none⟩⟩,
    ⟨.claimEvent (payment.newRow 11), .ok none⟩, ⟨.newUuid, 11⟩,
    ⟨.fetchGate 1, .ok (some ⟨.paymentGateway, .active⟩)⟩]

def race : List (Label (system textJson)) :=
  .start 1 (.receiveEvent payment) :: .start 2 (.receiveEvent payment) ::
    (settledPayment.claimed payment).labels 2 ++ lostClaim.labels 1 ++ [.finish 1, .crash 2]

theorem race_runs : (replay (fun _ _ => True) (Config.init twoConnectors) race).isSome := by
  decide

def raced : Config (system textJson) :=
  (replay (fun _ _ => True) (Config.init twoConnectors) race).get race_runs

theorem raced_lost : raced.threads 1 =
    .done (.receiveEvent payment) (.ok ⟨10, .received, none, true⟩) := rfl

theorem exactly_once_intake_raced :
    raced.hist.countP (invokes raced 1 "order-1:settled") ≤ 1 ∧
      ∃ u n, u ≠ 1 ∧ raced.Did u (.claimEvent n) (.ok (some 10)) ∧
        n.connectorId = 1 ∧ n.businessKey = "order-1:settled" := by
  have hr : Reach (system textJson) (· = twoConnectors) (fun _ _ => True) raced :=
    .of_replay (by rfl) race race_runs
  have h := exactly_once_intake (keyed_of_fresh twoConnectors_fresh) hr
  refine ⟨h.2.1 1 "order-1:settled", ?_⟩
  rcases (h.2.2 1 payment _ raced_lost).2 rfl with ⟨n, hn, -⟩ | hu
  · cases hn
  · exact hu

end BackboneIntegrations.Intake
