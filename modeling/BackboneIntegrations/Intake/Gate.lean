import BackboneIntegrations.Intake.Retry

/-!
# The connector behind a request to the target

`receive_event` maps only behind `fetch_gate`, which checks that the connector is active.
`fetch_for_retry` selects the kind and nothing else, so a retry maps for every connector that
was ever registered.
-/

open Interleave

namespace BackboneIntegrations.Intake

variable {V : Type} {json : JsonCodec V} {init : Hub → Prop}
  {ok : Config (system json) → Label (system json) → Prop} {cfg cfg' : Config (system json)}

/-- The connector exists, is not soft-deleted, and is `active`. -/
def Hub.active (w : Hub) (connectorId : Uuid) : Bool :=
  (w.connectors.lookup connectorId).any fun c => !c.deleted && c.status = .active

/-- Thread `t` reads the connector, and gets a row. -/
def readsConnector (t : Tid) (connectorId : Uuid) : Label (system json) → Bool
  | .op u (.fetchGate c) (.ok (some _)) | .op u (.fetchForRetry c) (.ok (some _)) =>
    u = t && c = connectorId
  | _ => false

/-- A retry gets a row only for an active connector. -/
def retriesActive (w : Hub) : Label (system json) → Bool
  | .op _ (.fetchForRetry c) (.ok (some _)) => w.active c
  | _ => true

/-- The step maps for a call whose own read found its connector active. -/
def Gated (older : List (Taken (system json))) (s : Taken (system json)) : Prop :=
  ∀ t req ans, s.label = .op t (.map req) ans → ∃ c, s.before.call? t = some c ∧
    ∃ r ∈ older, readsConnector t c.connectorId r.label ∧ Hub.active r.before.world c.connectorId

theorem active_of_gate {t : Tid} {c : Uuid} {conn : ConnectorGateRow} {w w' : Hub}
    (h : Hub.next t (.fetchGate c : Op V) (.ok (some conn)) w = some w')
    (hc : conn.status = .active) : w.active c := by
  simp only [Hub.next, Option.ite_none_right_eq_some] at h
  obtain ⟨hg, -⟩ := h
  unfold Hub.gate at hg
  split at hg
  · rename_i row hrow
    split at hg
    · cases hg
    · cases hg
      simp_all [Hub.active]
  · cases hg

/-- **Only an active connector reaches a target**, as long as no retry reads a connector that is
inactive or soft-deleted. -/
theorem active_connector_maps {newer older : List (Taken (system json))} {s : Taken (system json)}
    (h : Run (system json) init (fun cfg l => retriesActive cfg.world l) (newer ++ s :: older) cfg) :
    Gated older s := by
  obtain ⟨hold, -, hs⟩ := h.split
  intro t req ans hl
  rw [hl] at hs
  obtain ⟨c, hc, hm⟩ := (script_holds json).asked hold.reach hs
  refine ⟨c, hc, ?_⟩
  cases c with
  | receiveEvent e =>
    obtain ⟨d, -, hev⟩ := hm
    have hread : s.before.Did t (.fetchGate e.connectorId) (.ok (some d.conn)) :=
      mem_events.mp (by simp [hev, Delivery.claimed])
    obtain ⟨r, hr, hrl, -, -, hrs⟩ := hold.taken_of_mem hread
    have hactive := active_of_gate (V := V) (t := t) hrs.next_eq d.active
    exact ⟨r, hr, by simp [hrl, readsConnector, Call.connectorId], hactive⟩
  | retryFailed co cn =>
    obtain ⟨a, -, hev⟩ := hm
    obtain ⟨r, hr, hrl, -, hok, hrs⟩ := hold.taken_of_mem (mem_events.mp (hev ▸ a.read))
    refine ⟨r, hr, by simp [hrl, readsConnector, Call.connectorId], ?_⟩
    simpa [hrl, retriesActive, Call.connectorId] using hok

/-! A payment that fails, and its retry after an operator changed the connector. -/

def retriedAfter (conn : ConnectorRow) : List (Label (system textJson)) :=
  rejectedPayment.labels payment 1 ++ .env (.setConnector 1 conn) :: listFailed textJson

def retriedMap : Label (system textJson) :=
  .op 2 (.map (failedPayment.mapRequest textJson 7 .paymentGateway)) (.ok (.ignored "no-op"))

/-- Thread 2 never gets connector 1 while it is active. -/
def readsInactive (cfg : Config (system textJson)) (l : Label (system textJson)) : Bool :=
  readsConnector 2 1 l → !Hub.active cfg.world 1

theorem retriedAfter_run (ok : Config (system textJson) → Label (system textJson) → Prop)
    [∀ cfg l, Decidable (ok cfg l)] {conn : ConnectorRow}
    (hr : (replay ok (Config.init twoConnectors) (retriedAfter conn)).any fun cfg =>
      decide (ok cfg retriedMap) && (fire cfg retriedMap).isSome) :
    ∃ older s cfg, Run (system textJson) Hub.Fresh ok (s :: older) cfg ∧
      cfg.hist = retriedMap :: (retriedAfter conn).reverse ∧ s.label = retriedMap ∧
      s.before.call? 2 = some (.retryFailed 7 1) := by
  obtain ⟨cfg, hreach, hhist, hfire⟩ := Reach.exists_of_replay twoConnectors_fresh hr
  simp only [Bool.and_eq_true, decide_eq_true_eq] at hfire
  obtain ⟨cfg', hcfg'⟩ := Option.isSome_iff_exists.mp hfire.2
  obtain ⟨older, hrun⟩ := hreach.run
  have hs := step_of_fire hcfg'
  refine ⟨older, _, cfg', .step hrun hfire.1 hs, by rw [hs.hist, hhist], rfl, ?_⟩
  refine hreach.call_of_start ?_
  simp [hhist, retriedAfter, listFailed]

theorem not_gated_of_inactive {older : List (Taken (system textJson))} {s : Taken (system textJson)}
    {cfg : Config (system textJson)} (hl : s.label = retriedMap)
    (h : Run (system textJson) Hub.Fresh (readsInactive · ·) (s :: older) cfg)
    (hc : s.before.call? 2 = some (.retryFailed 7 1)) : ¬Gated older s := by
  intro hg
  obtain ⟨c, hc', r, hr, hread, hactive⟩ := hg 2 _ _ hl
  obtain rfl : Call.retryFailed 7 1 = c := Option.some.inj (hc.symm.trans hc')
  have hnot := h.forall_taken (P := fun s => readsInactive s.before s.label) (fun _ hok _ => hok) r
    (List.mem_cons_of_mem _ hr)
  simp only [Call.connectorId] at hread hactive
  simp [readsInactive, hread, hactive] at hnot

theorem inactive_runs : ∀ conn ∈ [⟨.paymentGateway, .inactive, false⟩, ⟨.paymentGateway, .active, true⟩],
    (replay (readsInactive · ·) (Config.init twoConnectors) (retriedAfter conn)).any fun cfg =>
      decide (readsInactive cfg retriedMap) && (fire cfg retriedMap).isSome := by
  decide

/-- A retry maps an event of connector 1 after the connector became `conn`. -/
def MappedAfter (conn : ConnectorRow) : Prop :=
  ∃ older s cfg, Run (system textJson) Hub.Fresh (fun _ _ => True) (s :: older) cfg ∧
    .env (.setConnector 1 conn) ∈ cfg.hist ∧ ¬Gated older s

theorem mappedAfter_of_runs {conn : ConnectorRow}
    (hconn : conn ∈ [⟨.paymentGateway, .inactive, false⟩, ⟨.paymentGateway, .active, true⟩]) :
    MappedAfter conn := by
  obtain ⟨older, s, cfg, hrun, hhist, hl, hc⟩ := retriedAfter_run _ (inactive_runs conn hconn)
  refine ⟨older, s, cfg, hrun.mono fun _ _ _ => trivial, ?_, not_gated_of_inactive hl hrun hc⟩
  simp [hhist, retriedAfter]

/-! Neither an inactive nor a soft-deleted connector stops a retry. -/

theorem inactive_connector_mapped : MappedAfter ⟨.paymentGateway, .inactive, false⟩ ∧
    MappedAfter ⟨.paymentGateway, .active, true⟩ :=
  ⟨mappedAfter_of_runs (by simp), mappedAfter_of_runs (by simp)⟩

theorem active_runs : (replay (fun cfg l => retriesActive cfg.world l) (Config.init twoConnectors)
    (retriedAfter ⟨.paymentGateway, .active, false⟩)).any fun cfg =>
      decide (retriesActive cfg.world retriedMap = true) && (fire cfg retriedMap).isSome := by
  decide

theorem active_connector_maps_active : ∃ older s cfg,
    Run (system textJson) Hub.Fresh (fun cfg l => retriesActive cfg.world l) (s :: older) cfg ∧
      s.label = retriedMap ∧ Gated older s := by
  obtain ⟨older, s, cfg, hrun, -, hl, -⟩ :=
    retriedAfter_run (fun cfg l => retriesActive cfg.world l) active_runs
  exact ⟨older, s, cfg, hrun, hl,
    active_connector_maps (show Run _ _ _ ([] ++ s :: older) cfg from hrun)⟩

end BackboneIntegrations.Intake
