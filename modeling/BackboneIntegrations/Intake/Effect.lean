import BackboneIntegrations.Intake.Lifecycle

/-!
# One internal record for each mapped row

The target deduplicates by company and business key, the intake by connector and business
key. They agree as long as no business key comes in on two connectors.
-/

open Interleave

namespace BackboneIntegrations.Intake

variable {V : Type} {json : JsonCodec V} {init : Hub → Prop}
  {ok : Config (system json) → Label (system json) → Prop} {cfg cfg' : Config (system json)}

/-! ## What was asked of the target -/

theorem row_of_map (hinit : ∀ w, init w → w.Keyed) (h : Reach (system json) init ok cfg)
    {t : Tid} {c : Call V} (hc : cfg.call? t = some c) {req : MapRequest V}
    {ans : Except MapRejected MapOutcome} (hd : cfg.Did t (.map req) ans) :
    req.companyId = c.companyId ∧ ∃ id n, Hub.source? cfg.world id = some n ∧
      n.connectorId = c.connectorId ∧ n.businessKey = req.idempotencyKey := by
  have hpast := (script_holds json).past h hc hd
  cases c with
  | receiveEvent e =>
    obtain ⟨pre, hpre, d, rfl, rfl⟩ := hpast
    have hclaim : cfg.Did t (.claimEvent (e.newRow d.newId)) (.ok (some d.eventId)) :=
      mem_events.mp (hpre.subset (by simp [Delivery.claimed]))
    exact ⟨rfl, d.eventId, _, (source?_of_claim hinit h hclaim).1, rfl, rfl⟩
  | retryFailed co cn =>
    obtain ⟨pre, hpre, a, rfl, rfl⟩ := hpast
    obtain ⟨rows, hrow, hrows⟩ := a.listed
    have hlist : cfg.Did t (.fetchFailed cn) (.ok rows) :=
      mem_events.mp (hpre.subset (List.mem_cons_of_mem _ hrows))
    obtain ⟨n, hn, rfl⟩ := told_of_reach hinit h _ hlist a.row hrow
    exact ⟨rfl, a.row.id, _, hn, rfl, rfl⟩

/-- The record that an update writes into its row. -/
def EventUpdate.ref? : EventUpdate → Option MappedRef
  | markMapped t r | retryMarkMapped t r => some ⟨t, r⟩
  | markIgnored _ | markFailed _ | retryMarkIgnored _ | setErrorDetail _ => none

def EventRow.ref? (r : EventRow) : Option MappedRef :=
  match r.mappedRefType, r.mappedRefId with
  | some t, some i => some ⟨t, i⟩
  | _, _ => none

theorem set_mapped {u : EventUpdate} {row : EventRow} (hg : row.status = u.guard)
    (hm : (u.set row).status = .mapped) : u.ref? = (u.set row).ref? ∧ u.ref? ≠ none := by
  cases u <;> simp_all [EventUpdate.set, EventUpdate.guard, EventUpdate.ref?, EventRow.ref?]

theorem delivery_ref? {d : Delivery} {e : InboundEvent V} {ref : MappedRef}
    (hu : (d.update e).ref? = some ref) : d.ans = .ok (.mapped ref) := by
  unfold Delivery.update settlement at hu
  split at hu
  · cases hu
    assumption
  · cases hu
  · cases hu

theorem map_of_updateTx (hinit : ∀ w, init w → w.Keyed) (h : Reach (system json) init ok cfg)
    {t : Tid} {id : Uuid} {u : EventUpdate} {n : Nat} (hd : cfg.Did t (.updateTx id u) (.ok n))
    {ref : MappedRef} (hu : u.ref? = some ref) :
    ∃ c req m, cfg.call? t = some c ∧ cfg.Did t (.map req) (.ok (.mapped ref)) ∧
      Hub.source? cfg.world id = some m ∧ m.connectorId = c.connectorId ∧
        m.businessKey = req.idempotencyKey := by
  obtain ⟨c, hc⟩ := (script_holds json).call_of_did h hd
  have hpast := (script_holds json).past h hc hd
  cases c with
  | receiveEvent e =>
    obtain ⟨pre, hpre, d, rfl, rfl, rfl⟩ := hpast
    have hin : ∀ ev ∈ d.opened e, ev ∈ cfg.events t := fun ev hev =>
      hpre.subset (List.mem_cons_of_mem _ hev)
    have hclaim : cfg.Did t (.claimEvent (e.newRow d.newId)) (.ok (some d.eventId)) :=
      mem_events.mp (hin _ (by simp [Delivery.opened, Delivery.mapped, Delivery.claimed]))
    have hmap : cfg.Did t (.map (e.mapRequest d.conn.kind)) d.ans :=
      mem_events.mp (hin _ (by simp [Delivery.opened, Delivery.mapped]))
    exact ⟨_, _, _, hc, delivery_ref? hu ▸ hmap, (source?_of_claim hinit h hclaim).1, rfl, rfl⟩
  | retryFailed co cn =>
    obtain ⟨pre, hpre, a, r, rfl, rfl, rfl⟩ := hpast
    have hin : ∀ ev ∈ a.opened json co r, ev ∈ cfg.events t := fun ev hev =>
      hpre.subset (List.mem_cons_of_mem _ hev)
    obtain ⟨rows, hrow, hrows⟩ := a.listed
    have hlist : cfg.Did t (.fetchFailed cn) (.ok rows) :=
      mem_events.mp (hin _ (by simp [Attempt.opened, Attempt.mapped, hrows]))
    have hmap : cfg.Did t (.map (a.request json co)) (.ok (.mapped r)) :=
      mem_events.mp (hin _ (by simp [Attempt.opened, Attempt.mapped]))
    -- The row is one that the call listed, so the key of the request is its own.
    obtain ⟨m, hm, rfl⟩ := told_of_reach hinit h _ hlist a.row hrow
    obtain rfl : r = ref := Option.some.inj hu
    exact ⟨_, _, _, hc, hmap, hm, rfl, rfl⟩

/-- A mapped row holds the target's answer to a request for that very row. -/
theorem map_of_mapped (hinit : ∀ w, init w → w.Fresh) (h : Reach (system json) init ok cfg)
    {id : Uuid} {r : EventRow} (hr : (Hub.events cfg.world).lookup id = some r)
    (hm : r.status = .mapped) :
    ∃ t c req ref, cfg.call? t = some c ∧ cfg.Did t (.map req) (.ok (.mapped ref)) ∧
      c.connectorId = r.connectorId ∧ req.idempotencyKey = r.businessKey ∧ r.ref? = some ref := by
  have hidle : ∀ w, init w → w.Idle := fun w hw => Hub.idle_of_fresh (hinit w hw)
  induction h generalizing r with
  | init h => simp [(hinit _ h).1] at hr
  | @step cfg l cfg' h hok hs ih =>
    rcases row_step hidle h hs hr with hold | ⟨-, e, rfl⟩ | ⟨t, u, row, hrow, hg, rfl, hu⟩
    · obtain ⟨t, c, req, ref, hc, hd, hrest⟩ := ih hold hm
      exact ⟨t, c, req, ref, hs.keeps_call hc, hs.did.mpr (.inr hd), hrest⟩
    · simp at hm
    · obtain ⟨href, hne⟩ := set_mapped hg hm
      rcases hu with ⟨n, hn⟩ | ⟨reason, rfl⟩ | ⟨d, rfl⟩
      · obtain ⟨ref, hur⟩ := Option.ne_none_iff_exists'.mp hne
        obtain ⟨c, req, m, hc, hd, hsrc, hcn, hk⟩ :=
          map_of_updateTx (fun w hw => (hidle w hw).keyed) h hn hur
        obtain ⟨row', hrow', rfl⟩ := Hub.source?_eq_some.mp hsrc
        obtain rfl : row = row' := Option.some.inj (hrow.symm.trans hrow')
        have hset := set_source u row
        simp only [EventRow.source, NewEventRow.mk.injEq] at hset hcn hk
        exact ⟨t, c, req, ref, hs.keeps_call hc, hs.did.mpr (.inr hd),
          hcn.symm.trans hset.2.1.symm, hk.symm.trans hset.2.2.2.2.1.symm, href ▸ hur⟩
      · simp [EventUpdate.ref?] at hne
      · simp [EventUpdate.ref?] at hne

/-! ## The contract of the target, and the condition on the keys -/

/-- The target keeps its contract: one record for each company and key, always the same. -/
def honoursKey (record : Uuid → String → MappedRef) : Label (system json) → Bool
  | .op _ (.map req) (.ok (.mapped r)) => r = record req.companyId req.idempotencyKey
  | _ => true

def ofCompany (companyId : Uuid) : Label (system json) → Bool
  | .start _ c => c.companyId = companyId
  | _ => true

/-- A claim that wins takes no business key of another connector. -/
def ownKey (w : Hub) : Label (system json) → Bool
  | .op _ (.claimEvent e) (.ok (some _)) =>
    ∀ r ∈ Table.rows w.events, r.businessKey = e.businessKey → r.connectorId = e.connectorId
  | _ => true

/-- One company, a target that keeps its contract, and no key on two connectors. -/
structure Separate (record : Uuid → String → MappedRef) (companyId : Uuid)
    (cfg : Config (system json)) (l : Label (system json)) : Prop where
  target : honoursKey record l
  company : ofCompany companyId l
  key : ownKey cfg.world l

variable {record : Uuid → String → MappedRef} {companyId : Uuid}

theorem record_of_map (h : Reach (system json) init (Separate record companyId) cfg) {t : Tid}
    {req : MapRequest V} {ref : MappedRef} (hd : cfg.Did t (.map req) (.ok (.mapped ref))) :
    ref = record req.companyId req.idempotencyKey := by
  induction h with
  | init h => cases hd
  | step h hok hs ih =>
    rcases hs.did.mp hd with rfl | hd
    · exact of_decide_eq_true hok.target
    · exact ih hd

theorem company_of_call (h : Reach (system json) init (Separate record companyId) cfg) {t : Tid}
    {c : Call V} (hc : cfg.call? t = some c) : c.companyId = companyId := by
  induction h with
  | init h => cases hc
  | step h hok hs ih =>
    rcases hs.call_cases hc with hc | rfl
    · exact ih hc
    · exact of_decide_eq_true hok.company

theorem connector_of_key (hinit : ∀ w, init w → w.Fresh)
    (h : Reach (system json) init (Separate record companyId) cfg) {id id' : Uuid}
    {n n' : NewEventRow} (hn : Hub.source? cfg.world id = some n)
    (hn' : Hub.source? cfg.world id' = some n') (hk : n.businessKey = n'.businessKey) :
    n.connectorId = n'.connectorId := by
  induction h generalizing id id' n n' with
  | init h => simp [Hub.source?, (hinit _ h).1] at hn
  | @step cfg l cfg' h hok hs ih =>
    rcases source?_step hs with he | ⟨t, e, rfl, -, -, he⟩
    · rw [he] at hn hn'
      exact ih hn hn' hk
    -- The new row agrees with every older row that has its key.
    · have hnew : ∀ {x m}, Hub.source? cfg.world x = some m → m.businessKey = e.businessKey →
          m.connectorId = e.connectorId := by
        intro x m hm hmk
        obtain ⟨r, hr, rfl⟩ := Hub.source?_eq_some.mp hm
        exact of_decide_eq_true hok.key r ((Table.mem_rows _ _).mpr ⟨x, hr⟩) hmk
      rw [he, Hub.insertEvent_source?] at hn hn'
      split at hn <;> split at hn'
      · cases hn
        cases hn'
        rfl
      · cases hn
        exact (hnew hn' hk.symm).symm
      · cases hn'
        exact hnew hn hk
      · exact ih hn hn' hk

/-! ## The theorem -/

/-- **Exactly-once effect**, when no business key comes in on two connectors. -/
theorem exactly_once_effect (hinj : Function.Injective2 record)
    (h : Reach (system json) Hub.Fresh (Separate record companyId) cfg) :
    (∀ id id' r r', (Hub.events cfg.world).lookup id = some r →
      (Hub.events cfg.world).lookup id' = some r' → r.status = .mapped → r'.status = .mapped →
      id ≠ id' → r.ref? ≠ r'.ref?) ∧
    ∀ id r, (Hub.events cfg.world).lookup id = some r → r.status = .mapped →
      r.ref? = some (record companyId r.businessKey) ∧
      ∃ t c req, cfg.call? t = some c ∧ c.connectorId = r.connectorId ∧
        req.idempotencyKey = r.businessKey ∧
        cfg.Did t (.map req) (.ok (.mapped (record companyId r.businessKey))) ∧
        ∀ t' c' req', cfg.call? t' = some c' →
          cfg.Did t' (.map req') (.ok (.mapped (record companyId r.businessKey))) →
          c'.connectorId = r.connectorId ∧ req'.idempotencyKey = r.businessKey := by
  have hkeyed : ∀ w : Hub, w.Fresh → w.Keyed := fun _ => keyed_of_fresh
  have hrow : ∀ id r, (Hub.events cfg.world).lookup id = some r → r.status = .mapped →
      ∃ t c req, cfg.call? t = some c ∧ c.connectorId = r.connectorId ∧
        req.idempotencyKey = r.businessKey ∧
        cfg.Did t (.map req) (.ok (.mapped (record companyId r.businessKey))) ∧
        r.ref? = some (record companyId r.businessKey) := by
    intro id r hr hm
    obtain ⟨t, c, req, ref, hc, hd, hcn, hk, href⟩ := map_of_mapped (fun _ hw => hw) h hr hm
    have hco := (row_of_map hkeyed h hc hd).1.trans (company_of_call h hc)
    have hrec : ref = record companyId r.businessKey := by
      rw [record_of_map h hd, hco, hk]
    exact ⟨t, c, req, hc, hcn, hk, hrec ▸ hd, hrec ▸ href⟩
  constructor
  · intro id id' r r' hr hr' hm hm' hne heq
    obtain ⟨-, -, -, -, -, -, -, href⟩ := hrow id r hr hm
    obtain ⟨-, -, -, -, -, -, -, href'⟩ := hrow id' r' hr' hm'
    have hk : r.businessKey = r'.businessKey :=
      (hinj (Option.some.inj (href.symm.trans (heq.trans href')))).2
    have hs : Hub.source? cfg.world id = some r.source := Hub.source?_eq_some.mpr ⟨r, hr, rfl⟩
    have hs' : Hub.source? cfg.world id' = some r'.source := Hub.source?_eq_some.mpr ⟨r', hr', rfl⟩
    -- Two rows with one record have one key, and no key is on two connectors.
    have hcn := connector_of_key (fun _ hw => hw) h hs hs' hk
    exact hne ((keyed_of_reach hkeyed h).unique id id' _ _ hs hs' hcn hk)
  · intro id r hr hm
    obtain ⟨t, c, req, hc, hcn, hk, hd, href⟩ := hrow id r hr hm
    refine ⟨href, t, c, req, hc, hcn, hk, hd, fun t' c' req' hc' hd' => ?_⟩
    obtain ⟨hco, id', n', hn', hcn', hk'⟩ := row_of_map hkeyed h hc' hd'
    have hkey : req'.idempotencyKey = r.businessKey :=
      (hinj (record_of_map h hd')).2.symm
    have hs : Hub.source? cfg.world id = some r.source := Hub.source?_eq_some.mpr ⟨r, hr, rfl⟩
    exact ⟨hcn'.symm.trans (connector_of_key (fun _ hw => hw) h hn' hs (hk'.trans hkey)), hkey⟩

/-! One order that two connectors of company 7 report under the same key. -/

def keyRecord (companyId : Uuid) (businessKey : String) : MappedRef := ⟨businessKey, companyId⟩

theorem keyRecord_injective : Function.Injective2 keyRecord := by
  intro co co' k k' h
  simp only [keyRecord, MappedRef.mk.injEq] at h
  exact ⟨h.2, h.1⟩

def mappedAs (id : Uuid) : Delivery :=
  ⟨⟨.paymentGateway, .active⟩, gateway_active, id, id, .ok (.mapped (keyRecord 7 "order-1:settled"))⟩

def twoReports : List (Label (system textJson)) :=
  (mappedAs 10).labels payment 1 ++ (mappedAs 20).labels { payment with connectorId := 2 } 2

def contracted (_ : Config (system textJson)) (l : Label (system textJson)) : Bool :=
  honoursKey keyRecord l && ofCompany 7 l

theorem twoReports_runs :
    (replay (contracted · ·) (Config.init twoConnectors) twoReports).isSome := by
  decide

def reported : Config (system textJson) :=
  (replay (contracted · ·) (Config.init twoConnectors) twoReports).get twoReports_runs

theorem one_record_for_two_rows :
    Function.Injective2 keyRecord ∧
    Reach (system textJson) Hub.Fresh (contracted · ·) reported ∧
    ∃ r r', (Hub.events reported.world).lookup 10 = some r ∧
      (Hub.events reported.world).lookup 20 = some r' ∧ r.status = .mapped ∧ r'.status = .mapped ∧
      r.connectorId ≠ r'.connectorId ∧ r.ref? = r'.ref? :=
  ⟨keyRecord_injective, .of_replay twoConnectors_fresh twoReports twoReports_runs,
    (reported.world.events.lookup 10).get (by decide),
    (reported.world.events.lookup 20).get (by decide),
    (Option.some_get _).symm, (Option.some_get _).symm, by decide, by decide, by decide, by decide⟩

/-- The same two connectors with a key each. -/
def ownReports : List (Label (system textJson)) :=
  (mappedAs 10).labels payment 1 ++
    Delivery.labels ⟨⟨.paymentGateway, .active⟩, gateway_active, 20, 20,
      .ok (.mapped (keyRecord 7 "order-2:settled"))⟩
      { payment with connectorId := 2, businessKey := "order-2:settled" } 2

def separated (cfg : Config (system textJson)) (l : Label (system textJson)) : Bool :=
  contracted cfg l && ownKey cfg.world l

theorem ownReports_runs :
    (replay (separated · ·) (Config.init twoConnectors) ownReports).isSome := by
  decide

def reportedApart : Config (system textJson) :=
  (replay (separated · ·) (Config.init twoConnectors) ownReports).get ownReports_runs

theorem exactly_once_effect_apart :
    ∃ r r', (Hub.events reportedApart.world).lookup 10 = some r ∧
      (Hub.events reportedApart.world).lookup 20 = some r' ∧ r.ref? ≠ r'.ref? := by
  have hr : Reach (system textJson) Hub.Fresh (separated · ·) reportedApart :=
    .of_replay twoConnectors_fresh ownReports ownReports_runs
  have hsep : Reach (system textJson) Hub.Fresh (Separate keyRecord 7) reportedApart := by
    refine hr.mono fun cfg l hl => ?_
    simp only [separated, contracted, Bool.and_eq_true] at hl
    exact ⟨hl.1.1, hl.1.2, hl.2⟩
  refine ⟨_, _, (Option.some_get (by decide)).symm, (Option.some_get (by decide)).symm, ?_⟩
  exact (exactly_once_effect keyRecord_injective hsep).1 10 20 _ _ (Option.some_get _).symm
    (Option.some_get _).symm (by decide) (by decide) (by decide)

end BackboneIntegrations.Intake
