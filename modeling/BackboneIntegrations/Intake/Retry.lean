import BackboneIntegrations.Intake.Effect

/-!
# What a retry asks of the target

`receive_event` sends the payload it was given, `retry_failed` parses the stored raw text.
Everything else of the request is rebuilt as it was.
-/

open Interleave

namespace BackboneIntegrations.Intake

variable {V : Type} {json : JsonCodec V} {init : Hub → Prop}
  {ok : Config (system json) → Label (system json) → Prop} {cfg cfg' : Config (system json)}

/-! ## The kind of a connector -/

/-- Nobody changes the kind of a connector. -/
def keepsKind (w : Hub) : Label (system json) → Bool
  | .env (.setConnector id row) => ∀ old ∈ w.connectors.lookup id, row.kind = old.kind
  | _ => true

def Hub.kind? (w : Hub) (connectorId : Uuid) : Option ConnectorKind :=
  (w.connectors.lookup connectorId).map (·.kind)

/-- A kind that a call has read is still the kind. -/
def KindTold (w : Hub) : Label (system json) → Prop
  | .op _ (.fetchGate c) (.ok (some conn)) => w.kind? c = some conn.kind
  | .op _ (.fetchForRetry c) (.ok (some conn)) => w.kind? c = some conn.kind
  | _ => True

theorem kind?_step {l : Label (system json)} (hl : keepsKind cfg.world l)
    (hs : Step (system json) cfg l cfg') {c : Uuid} {k : ConnectorKind}
    (hk : Hub.kind? cfg.world c = some k) : Hub.kind? cfg'.world c = some k := by
  cases hs with
  | start ht | finish ht | crash ht => exact hk
  | @env e w hw =>
    cases e with
    | tick clock =>
      simp only [system, Hub.env, Option.ite_none_right_eq_some, Option.some.injEq] at hw
      rw [← hw.2]
      exact hk
    | setConnector id row =>
      cases hw
      simp only [Hub.kind?, Table.lookup_insert_ite]
      split
      · subst_vars
        obtain ⟨old, hold, rfl⟩ := Option.map_eq_some_iff.mp hk
        exact congrArg some (of_decide_eq_true hl old hold)
      · exact hk
  | @op t c' op ans k' w ht hw =>
    rw [Config.put_world]
    cases Hub.next_change hw with
    | quiet hq | insert hc hid | queue hrow hfree | stage | rollback => exact hk
    | commit =>
      rw [Hub.kind?, Hub.commit, Hub.foldl_connectors]
      exact hk
    | update hrow hfree =>
      rw [Hub.kind?, Hub.apply_connectors]
      exact hk

theorem kindTold_next {t : Tid} {op : Op V} {ans : Ans op} {w w' : Hub}
    (h : Hub.next t op ans w = some w') : KindTold w' (.op t op ans : Label (system json)) := by
  unfold KindTold
  split
  · rename_i heq
    cases heq
    simp only [Hub.next, Option.ite_none_right_eq_some, Option.some.injEq] at h
    obtain ⟨hg, rfl⟩ := h
    unfold Hub.gate at hg
    split at hg
    · split at hg <;> cases hg
      simp [Hub.kind?, *]
    · cases hg
  · rename_i heq
    cases heq
    simp only [Hub.next, Option.ite_none_right_eq_some, Option.some.injEq] at h
    obtain ⟨hf, rfl⟩ := h
    obtain ⟨row, hrow, rfl⟩ := Option.map_eq_some_iff.mp hf.symm
    simp [Hub.kind?, hrow]
  · trivial

theorem kindTold_of_reach
    (h : Reach (system json) init (fun cfg l => keepsKind cfg.world l) cfg) :
    ∀ l ∈ cfg.hist, KindTold cfg.world l := by
  refine h.mem_hist (P := fun l w => KindTold w l) (fun h hok hs => ?_) fun h hok hs hk => ?_
  · cases hs with
    | op ht hw => exact kindTold_next hw
    | _ => trivial
  · unfold KindTold at *
    split
    · exact kind?_step hok hs hk
    · exact kind?_step hok hs hk
    · trivial

/-! ## The two requests -/

theorem request_of_receive (h : Reach (system json) init ok cfg) {t : Tid} {e : InboundEvent V}
    (hc : cfg.call? t = some (.receiveEvent e)) {req : MapRequest V}
    {ans : Except MapRejected MapOutcome} (hd : cfg.Did t (.map req) ans) :
    ∃ conn, cfg.Did t (.fetchGate e.connectorId) (.ok (some conn)) ∧ req = e.mapRequest conn.kind := by
  obtain ⟨pre, hpre, d, rfl, rfl⟩ := (script_holds json).past h hc hd
  exact ⟨d.conn, mem_events.mp (hpre.subset (by simp [Delivery.claimed])), rfl⟩

theorem request_of_retry (h : Reach (system json) init ok cfg) {u : Tid} {co cn : Uuid}
    (hc : cfg.call? u = some (.retryFailed co cn)) {req : MapRequest V}
    {ans : Except MapRejected MapOutcome} (hd : cfg.Did u (.map req) ans) :
    ∃ conn rows row, cfg.Did u (.fetchForRetry cn) (.ok (some conn)) ∧
      cfg.Did u (.fetchFailed cn) (.ok rows) ∧ row ∈ rows ∧
      req = row.mapRequest json co conn.kind := by
  obtain ⟨pre, hpre, a, rfl, rfl⟩ := (script_holds json).past h hc hd
  have hin : ∀ ev ∈ a.before, ev ∈ cfg.events u := fun ev hev =>
    hpre.subset (List.mem_cons_of_mem _ hev)
  obtain ⟨rows, hrow, hrows⟩ := a.listed
  exact ⟨a.conn, rows, a.row, mem_events.mp (hin _ a.read), mem_events.mp (hin _ hrows), hrow, rfl⟩

theorem source?_of_receive (hinit : ∀ w, init w → w.Keyed) (h : Reach (system json) init ok cfg)
    {t : Tid} {e : InboundEvent V} (hc : cfg.call? t = some (.receiveEvent e)) {n : NewEventRow}
    {id : Uuid} (hd : cfg.Did t (.claimEvent n) (.ok (some id))) :
    Hub.source? cfg.world id = some (e.newRow id) := by
  obtain ⟨pre, -, hn, -⟩ := (script_holds json).past h hc hd
  obtain ⟨hs, rfl⟩ := source?_of_claim hinit h hd
  rw [hs, ← hn]

/-- **A retry re-drives the same request**, exactly when the raw text parses to the payload. -/
theorem retry_request_iff (hinit : ∀ w, init w → w.Keyed)
    (h : Reach (system json) init (fun cfg l => keepsKind cfg.world l) cfg) {t u : Tid}
    {e : InboundEvent V} (ht : cfg.call? t = some (.receiveEvent e))
    (hu : cfg.call? u = some (.retryFailed e.companyId e.connectorId))
    {n : NewEventRow} {id : Uuid} (hclaim : cfg.Did t (.claimEvent n) (.ok (some id)))
    {req req' : MapRequest V} {ans ans' : Except MapRejected MapOutcome}
    (hreq : cfg.Did t (.map req) ans) (hreq' : cfg.Did u (.map req') ans') :
    ∃ conn rows row, cfg.Did u (.fetchForRetry e.connectorId) (.ok (some conn)) ∧
      cfg.Did u (.fetchFailed e.connectorId) (.ok rows) ∧ row ∈ rows ∧
      req' = row.mapRequest json e.companyId conn.kind ∧
      (req'.idempotencyKey = e.businessKey ↔ row.id = id) ∧
      (row.id = id → (req' = req ↔ (json.fromStr e.raw).getD json.null = e.payload)) := by
  obtain ⟨gate, hgate, rfl⟩ := request_of_receive h ht hreq
  obtain ⟨conn, rows, row, hread, hrows, hrow, rfl⟩ := request_of_retry h hu hreq'
  have hs := source?_of_receive hinit h ht hclaim
  obtain ⟨m, hm, rfl⟩ := told_of_reach hinit h _ hrows row hrow
  have hkind : conn.kind = gate.kind :=
    Option.some.inj ((kindTold_of_reach h _ hread).symm.trans (kindTold_of_reach h _ hgate))
  -- What a row was inserted from stays, so the list names the fields of the first delivery.
  have hfields : row.id = id → e.eventType = row.eventType ∧ e.externalId = row.externalId ∧
      e.businessKey = row.businessKey ∧ e.raw = row.payload := by
    rintro rfl
    have hrow := Option.some.inj (hs.symm.trans hm)
    simp only [InboundEvent.newRow, NewEventRow.mk.injEq, true_and] at hrow
    exact hrow
  refine ⟨conn, rows, row, hread, hrows, hrow, rfl, ⟨fun hk => ?_, fun hid => ?_⟩, fun hid => ?_⟩
  · exact (keyed_of_reach hinit h).unique _ _ _ _ hm hs rfl hk
  · exact (hfields hid).2.2.1.symm
  · obtain ⟨het, hex, hbk, hraw⟩ := hfields hid
    simp only [FailedEventRow.mapRequest, InboundEvent.mapRequest, MapRequest.mk.injEq, hkind, het,
      hex, hbk, hraw, true_and]

/-! A payment whose raw text is not JSON, rejected and then retried. -/

/-- `serde_json` on the texts of this run: only the second is not JSON. -/
def braceJson : JsonCodec String := ⟨"null", fun s => if s = "{...}" then none else some s⟩

def opaquePayment : InboundEvent String := { payment with raw := "{...}" }

def opaqueRow : FailedEventRow := { failedPayment with payload := "{...}" }

def retried (e : InboundEvent String) (row : FailedEventRow) : List (Label (system braceJson)) :=
  rejectedPayment.labels e 1 ++
    [.start 2 (.retryFailed 7 1), .op 2 (.fetchForRetry 1) (.ok (some ⟨.paymentGateway⟩)),
      .op 2 (.fetchFailed 1) (.ok [row]),
      .op 2 (.map (row.mapRequest braceJson 7 .paymentGateway)) (.error ⟨"NO_ACCOUNT", "no such account"⟩)]

theorem opaque_runs : (replay (fun cfg l => keepsKind cfg.world l) (Config.init twoConnectors)
    (retried opaquePayment opaqueRow)).isSome := by
  decide

def opaqueRetried : Config (system braceJson) :=
  (replay (fun cfg l => keepsKind cfg.world l) (Config.init twoConnectors)
    (retried opaquePayment opaqueRow)).get opaque_runs

theorem opaque_requests_differ :
    Reach (system braceJson) Hub.Fresh (fun cfg l => keepsKind cfg.world l) opaqueRetried ∧
    opaqueRetried.call? 1 = some (.receiveEvent opaquePayment) ∧
    opaqueRetried.call? 2 = some (.retryFailed opaquePayment.companyId opaquePayment.connectorId) ∧
    ∃ req req', opaqueRetried.Did 1 (.map req) (.error ⟨"NO_ACCOUNT", "no such account"⟩) ∧
      opaqueRetried.Did 2 (.map req') (.error ⟨"NO_ACCOUNT", "no such account"⟩) ∧
      req'.idempotencyKey = opaquePayment.businessKey ∧ req'.payload ≠ req.payload := by
  refine ⟨.of_replay twoConnectors_fresh _ opaque_runs, rfl, rfl,
    opaquePayment.mapRequest .paymentGateway, opaqueRow.mapRequest braceJson 7 .paymentGateway,
    ?_, ?_, rfl, by decide⟩
  · exact mem_hist_of_replay opaque_runs (by simp [retried, Delivery.labels, Past.labels,
      Delivery.committed, Delivery.staged, Delivery.updated, Delivery.opened, Delivery.mapped,
      rejectedPayment])
  · exact mem_hist_of_replay opaque_runs (by simp [retried])

theorem payment_runs : (replay (fun cfg l => keepsKind cfg.world l) (Config.init twoConnectors)
    (retried payment failedPayment)).isSome := by
  decide

def paymentRetried : Config (system braceJson) :=
  (replay (fun cfg l => keepsKind cfg.world l) (Config.init twoConnectors)
    (retried payment failedPayment)).get payment_runs

theorem payment_did {l : Label (system braceJson)} (h : l ∈ retried payment failedPayment) :
    l ∈ paymentRetried.hist := mem_hist_of_replay payment_runs h

theorem retry_request_iff_payment :
    failedPayment.mapRequest braceJson 7 .paymentGateway = payment.mapRequest .paymentGateway := by
  have hr : Reach (system braceJson) Hub.Fresh (fun cfg l => keepsKind cfg.world l)
      paymentRetried := .of_replay twoConnectors_fresh _ payment_runs
  have hclaim : paymentRetried.Did 1 (.claimEvent (payment.newRow 10)) (.ok (some 10)) :=
    payment_did (by simp [retried, Delivery.labels, Past.labels, Delivery.committed,
      Delivery.staged, Delivery.updated, Delivery.opened, Delivery.mapped, Delivery.claimed,
      rejectedPayment])
  have hreq : paymentRetried.Did 1 (.map (payment.mapRequest .paymentGateway))
      (.error ⟨"NO_ACCOUNT", "no such account"⟩) :=
    payment_did (by simp [retried, Delivery.labels, Past.labels, Delivery.committed,
      Delivery.staged, Delivery.updated, Delivery.opened, Delivery.mapped, rejectedPayment])
  have hreq' : paymentRetried.Did 2 (.map (failedPayment.mapRequest braceJson 7 .paymentGateway))
      (.error ⟨"NO_ACCOUNT", "no such account"⟩) := payment_did (by simp [retried])
  obtain ⟨conn, rows, row, -, -, -, -, hkey, hiff⟩ :=
    retry_request_iff (fun _ => keyed_of_fresh) hr rfl rfl hclaim hreq hreq'
  exact (hiff (hkey.mp rfl)).mpr rfl

end BackboneIntegrations.Intake
