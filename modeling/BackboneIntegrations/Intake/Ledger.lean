import BackboneIntegrations.Inbox
import BackboneIntegrations.Interleave.Simulation
import BackboneIntegrations.Intake.Announce
import BackboneIntegrations.Intake.Lifecycle

/-!
# The intake is an inbox

The events table is an inbox with one entry for each connector and business key, and the outbox has its
notices. The notices of one event tell its history.
-/

open Interleave Inbox

namespace BackboneIntegrations.Intake

variable {V : Type} {json : JsonCodec V} {init : Hub → Prop}
  {ok : Config (system json) → Label (system json) → Prop} {cfg cfg' : Config (system json)}

/-! ## The specification -/

/-- What the unique index is on. -/
abbrev Slot := Uuid × String

def NewEventRow.slot (n : NewEventRow) : Slot := (n.connectorId, n.businessKey)

/-- The event that announces what became of a row. -/
def announcement (n : NewEventRow) (companyId : Uuid) (reason : String) :
    Verdict MappedRef → IntegrationEvent
  | .done ref => .integrationEventMapped n.id companyId n.connectorId n.eventType n.externalId
      ref.internalRefType ref.internalRefId
  | .dropped => .integrationEventIgnored n.id companyId n.connectorId n.externalId reason
  | .failed => .integrationEventFailed n.id companyId n.connectorId n.externalId reason

/-- The columns of a row say what became of it. -/
inductive EventRow.InPhase (r : EventRow) : Phase MappedRef → Prop
  | received (h : r.status = .received) : r.InPhase .booked
  | mapped {ref} (h : r.status = .mapped) (href : r.ref? = some ref) : r.InPhase (.settled (.done ref))
  | ignored (h : r.status = .ignored) : r.InPhase (.settled .dropped)
  | failed (h : r.status = .failed) : r.InPhase (.settled .failed)

/-- The record announces the verdict on the row of the slot. -/
def Tells (w : Hub) (record : OutboxRecord) (notice : Slot × Verdict MappedRef) : Prop :=
  ∃ n companyId reason, w.source? n.id = some n ∧ n.slot = notice.1 ∧
    record = (announcement n companyId reason notice.2).record

/-- The tables show the inbox. -/
structure Shows (w : Hub) (s : Inbox Slot NewEventRow MappedRef) : Prop where
  rows : ∀ c k, Option.Rel (fun r e => r.source = e.1 ∧ r.InPhase e.2) (w.byKey c k) (s.entry (c, k))
  outbox : List.Forall₂ (Tells w) w.outbox s.notices

/-- The records of one event, oldest first. -/
def Hub.records (w : Hub) (id : Uuid) : List OutboxRecord := w.outbox.filter (·.aggregateId = id)

/-! ## The unique index -/

section

variable {w w' : Hub} {s : Inbox Slot NewEventRow MappedRef}

theorem Hub.Keyed.byKey_iff (hk : w.Keyed) {c : Uuid} {k : String} {r : EventRow} :
    w.byKey c k = some r ↔ w.events.lookup r.id = some r ∧ r.source.slot = (c, k) := by
  constructor
  · intro h
    obtain ⟨id, hid, rfl, rfl⟩ := Hub.byKey_eq_some h
    have hs : w.source? id = some r.source := by rw [Hub.source?, hid, Option.map_some]
    obtain rfl : r.id = id := hk.id_eq id _ hs
    exact ⟨hid, rfl⟩
  · rintro ⟨hr, hslot⟩
    simp only [NewEventRow.slot, EventRow.source, Prod.mk.injEq] at hslot
    obtain ⟨hc, hb⟩ := hslot
    have hs : w.source? r.id = some r.source := by rw [Hub.source?, hr, Option.map_some]
    cases hfound : w.byKey c k with
    | none => exact absurd ⟨hc, hb⟩ (Hub.byKey_eq_none.mp hfound r.id r.source hs)
    | some r' =>
      obtain ⟨id, hid, hc', hb'⟩ := Hub.byKey_eq_some hfound
      have hs' : w.source? id = some r'.source := by rw [Hub.source?, hid, Option.map_some]
      obtain rfl := hk.unique _ _ _ _ hs hs' (hc.trans hc'.symm) (hb.trans hb'.symm)
      rw [hr] at hid
      exact hid.symm

theorem byKey_of_lookup (h : w'.events = w.events) : w'.byKey = w.byKey := by
  unfold Hub.byKey
  rw [h]

theorem byKey_of_changed (hk : w.Keyed) (hk' : w'.Keyed) {r : EventRow}
    (hr : w'.events.lookup r.id = some r)
    (hsame : ∀ id, id ≠ r.id → w'.events.lookup id = w.events.lookup id)
    (hold : ∀ x, w.events.lookup r.id = some x → x.source = r.source) (c : Uuid) (k : String) :
    w'.byKey c k = if r.source.slot = (c, k) then some r else w.byKey c k := by
  refine Option.ext fun x => ?_
  rw [hk'.byKey_iff]
  split
  · rename_i hslot
    constructor
    · rintro ⟨hx, hxs⟩
      have hboth := hk'.byKey_iff.mpr ⟨hx, hxs⟩
      rwa [hk'.byKey_iff.mpr ⟨hr, hslot⟩] at hboth
    · intro hx
      obtain rfl := Option.some.inj hx
      exact ⟨hr, hslot⟩
  · rename_i hslot
    rw [hk.byKey_iff]
    by_cases hid : x.id = r.id
    · constructor
      · rintro ⟨hx, hxs⟩
        rw [hid, hr, Option.some.injEq] at hx
        exact absurd (hx ▸ hxs) hslot
      · rintro ⟨hx, hxs⟩
        rw [hid] at hx
        exact absurd (hold x hx ▸ hxs) hslot
    · rw [hsame x.id hid]

theorem Tells.mono (hw : w'.source? = w.source?) {record : OutboxRecord}
    {notice : Slot × Verdict MappedRef} (h : Tells w record notice) : Tells w' record notice := by
  unfold Tells at *
  rwa [hw]

theorem Shows.of_same (h : Shows w s) (he : w'.events = w.events) (ho : w'.outbox = w.outbox) :
    Shows w' s where
  rows c k := by
    rw [byKey_of_lookup he]
    exact h.rows c k
  outbox := by
    have hsource : w'.source? = w.source? := by
      funext id
      rw [Hub.source?, he, Hub.source?]
    rw [ho]
    exact h.outbox.imp fun _ _ => Tells.mono hsource

theorem Shows.entry_of_row (h : Shows w s) (hk : w.Keyed) {r : EventRow}
    (hr : w.events.lookup r.id = some r) :
    ∃ p, s.entry r.source.slot = some (r.source, p) ∧ r.InPhase p := by
  have hrel := h.rows r.connectorId r.businessKey
  have hfound : w.byKey r.connectorId r.businessKey = some r := hk.byKey_iff.mpr ⟨hr, rfl⟩
  rw [hfound] at hrel
  rcases hentry : s.entry (r.connectorId, r.businessKey) with _ | ⟨d, p⟩ <;> rw [hentry] at hrel
  · cases hrel
  · cases hrel with
    | some hboth =>
      obtain ⟨rfl, hp⟩ := hboth
      exact ⟨p, hentry, hp⟩

theorem Shows.rows_of_changed (h : Shows w s) (hk : w.Keyed) (hk' : w'.Keyed) {r : EventRow}
    (hr : w'.events.lookup r.id = some r)
    (hsame : ∀ id, id ≠ r.id → w'.events.lookup id = w.events.lookup id)
    (hold : ∀ x, w.events.lookup r.id = some x → x.source = r.source) {p : Phase MappedRef}
    (hp : r.InPhase p) (c : Uuid) (k : String) :
    Option.Rel (fun r e => r.source = e.1 ∧ r.InPhase e.2) (w'.byKey c k)
      ((s.put r.source.slot r.source p).entry (c, k)) := by
  rw [byKey_of_changed hk hk' hr hsame hold, entry_put]
  by_cases hslot : r.source.slot = (c, k)
  · rw [if_pos hslot, if_pos hslot.symm]
    exact .some ⟨rfl, hp⟩
  · rw [if_neg hslot, if_neg (Ne.symm hslot)]
    exact h.rows c k

theorem Shows.rows_of_set (h : Shows w s) (hk : w.Keyed) (hk' : w'.Keyed) {row : EventRow}
    (hrow : w.events.lookup row.id = some row) {u : EventUpdate}
    (hrows : ∀ id, w'.events.lookup id =
      if id = row.id then (w.events.lookup id).map u.set else w.events.lookup id)
    {p : Phase MappedRef} (hp : (u.set row).InPhase p) (c : Uuid) (k : String) :
    Option.Rel (fun r e => r.source = e.1 ∧ r.InPhase e.2) (w'.byKey c k)
      ((s.put row.source.slot row.source p).entry (c, k)) := by
  have hid : (u.set row).id = row.id := congrArg NewEventRow.id (set_source u row)
  have hput := h.rows_of_changed hk hk' (r := u.set row) ?_ ?_ ?_ hp c k
  · rwa [set_source] at hput
  · rw [hid, hrows, if_pos rfl, hrow, Option.map_some]
  · intro x hne
    rw [hrows, if_neg (hid ▸ hne)]
  · intro x hx
    rw [hid, hrow] at hx
    obtain rfl := Option.some.inj hx
    rw [set_source]

end

/-! ## What a commit settles -/

def verdict : Except MapRejected MapOutcome → Verdict MappedRef
  | .ok (.mapped ref) => .done ref
  | .ok (.ignored _) => .dropped
  | .error _ => .failed

/-- The writes settle the row of `n`, and announce what became of it. -/
structure Settling (w : Hub) (ws : List Write) (n : NewEventRow) (u : EventUpdate)
    (v : Verdict MappedRef) : Prop where
  source : w.source? n.id = some n
  writes : ∃ companyId reason, ws = [.update n.id u, .stage (announcement n companyId reason v).record]
  phase : ∀ row, (u.set row).InPhase (.settled v)
  before : u.guard = .received ∨ u.guard = .failed ∧ ∃ ref, v = .done ref

theorem settlement_announces (e : InboundEvent V) (id : Uuid) (ans : Except MapRejected MapOutcome) :
    ∃ reason, (settlement e id ans).2 = announcement (e.newRow id) e.companyId reason (verdict ans) := by
  rcases ans with rej | ref | reason
  · exact ⟨rej.code, rfl⟩
  · exact ⟨"", rfl⟩
  · exact ⟨reason, rfl⟩

theorem settlement_phase (e : InboundEvent V) (id : Uuid) (ans : Except MapRejected MapOutcome)
    (row : EventRow) : ((settlement e id ans).1.set row).InPhase (.settled (verdict ans)) := by
  rcases ans with rej | ref | reason
  · exact .failed rfl
  · exact .mapped rfl rfl
  · exact .ignored rfl

theorem settling_of_commit (hinit : ∀ w, init w → w.Idle) (h : Reach (system json) init ok cfg)
    {t : Tid} {c : Call V} {k : Except DbError Unit → Prog (Sig V) (Res c)}
    (ht : cfg.threads t = .running c (.call .commit k)) :
    ∃ n u v, Settling cfg.world ((Hub.txs cfg.world).writes t) n u v := by
  have hkeyed : ∀ w, init w → w.Keyed := fun w hw => (hinit w hw).keyed
  have hm := (script_holds json).must h ht
  cases c with
  | receiveEvent e =>
    obtain ⟨d, m, hev⟩ := hm
    have hclaim : cfg.Did t (.claimEvent (e.newRow d.newId)) (.ok (some d.eventId)) := by
      refine mem_events.mp ?_
      rw [hev]
      simp [Delivery.staged, Delivery.updated, Delivery.opened, Delivery.mapped, Delivery.claimed]
    -- The row of a delivery is the one that it claimed.
    obtain ⟨hn, hid⟩ := source?_of_claim hkeyed h hclaim
    have hnew : d.newId = d.eventId := hid
    rw [hnew] at hn
    obtain ⟨reason, hreason⟩ := settlement_announces e d.eventId d.ans
    refine ⟨e.newRow d.eventId, d.update e, verdict d.ans, hn, ⟨e.companyId, reason, ?_⟩, ?_, ?_⟩
    · rw [delivery_writes hinit h ht hev, ← hreason]
      rfl
    · exact settlement_phase e d.eventId d.ans
    · exact .inl (delivery_update_guard d e)
  | retryFailed co cn =>
    obtain ⟨a, r, hev⟩ := hm
    obtain ⟨rows, hrow, hlist⟩ := a.listed
    have hdid : cfg.Did t (.fetchFailed cn) (.ok rows) := by
      refine mem_events.mp ?_
      rw [hev]
      simp [Attempt.staged, Attempt.updated, Attempt.opened, Attempt.mapped, hlist]
    -- The row of a retry is one that it listed, and the listed columns never change.
    obtain ⟨n, hn, rfl⟩ := told_of_reach hkeyed h _ hdid a.row hrow
    let n : NewEventRow :=
      ⟨a.row.id, cn, a.row.eventType, a.row.externalId, a.row.businessKey, a.row.payload⟩
    refine ⟨n, Attempt.update r, .done r, hn, ⟨co, "", ?_⟩, ?_, ?_⟩
    · exact attempt_writes hinit h ht hev
    · exact fun _ => .mapped rfl rfl
    · exact .inr ⟨attempt_update_guard r, r, rfl⟩

theorem booked_of_received {r : EventRow} {p : Phase MappedRef} (h : r.InPhase p)
    (hs : r.status = .received) : p = .booked := by
  cases h with
  | received => rfl
  | mapped h | ignored h | failed h =>
    rw [hs] at h
    cases h

theorem failed_of_failed {r : EventRow} {p : Phase MappedRef} (h : r.InPhase p)
    (hs : r.status = .failed) : p = .settled .failed := by
  cases h with
  | failed => rfl
  | received h | mapped h | ignored h =>
    rw [hs] at h
    cases h

/-! ## Every step is a step of the inbox -/

theorem Shows.commit {w : Hub} {t : Tid} {s : Inbox Slot NewEventRow MappedRef} (h : Shows w s)
    (hl : w.Locked) (hk : w.Keyed) (hk' : (w.commit t).Keyed) {n : NewEventRow} {u : EventUpdate}
    {v : Verdict MappedRef} (hset : Settling w (w.txs.writes t) n u v) :
    ∃ s', Inbox.Step s s' ∧ Shows (w.commit t) s' := by
  obtain ⟨hsource, ⟨companyId, reason, hw⟩, hphase, hbefore⟩ := hset
  obtain ⟨row, hrow, rfl⟩ := Hub.source?_eq_some.mp hsource
  have hid : row.source.id = row.id := rfl
  rw [hid] at hrow hw
  have hst : row.status = u.guard := by
    have hg := hl.guarded (t := t) (hw ▸ List.mem_cons_self)
    rwa [Hub.status?, hrow, Option.map_some, Option.some.injEq] at hg
  have hrows (id : Uuid) : (w.commit t).events.lookup id =
      if id = row.id then (w.events.lookup id).map u.set else w.events.lookup id := by
    simp [hw, Hub.apply_lookup]
  have hshows : Shows (w.commit t)
      ((s.put row.source.slot row.source (.settled v)).tell row.source.slot v) := by
    constructor
    · exact h.rows_of_set hk hk' hrow hrows (hphase row)
    · have hout : (w.commit t).outbox =
          w.outbox ++ [(announcement row.source companyId reason v).record] := by
        simp [hw]
      rw [hout]
      refine List.rel_append (h.outbox.imp fun _ _ => Tells.mono (Hub.commit_source? w t)) ?_
      refine .cons ⟨row.source, companyId, reason, ?_, rfl, rfl⟩ .nil
      rw [Hub.commit_source?]
      exact hsource
  obtain ⟨p, hentry, hp⟩ := h.entry_of_row hk hrow
  -- A delivery settles a booked message, and a retry does a failed one again.
  rcases hbefore with hg | ⟨hg, ref, rfl⟩
  · obtain rfl := booked_of_received hp (hst.trans hg)
    exact ⟨_, .settle hentry, hshows⟩
  · obtain rfl := failed_of_failed hp (hst.trans hg)
    exact ⟨_, .redo hentry, hshows⟩

theorem Shows.insertEvent {w : Hub} {s : Inbox Slot NewEventRow MappedRef} (h : Shows w s)
    (hk : w.Keyed) {e : NewEventRow} (hk' : (w.insertEvent e).Keyed)
    (hslot : w.byKey e.connectorId e.businessKey = none) (hid : w.events.lookup e.id = none) :
    ∃ s', Inbox.Step s s' ∧ Shows (w.insertEvent e) s' := by
  have hfree : s.entry e.slot = none := by
    have hrel := h.rows e.connectorId e.businessKey
    rw [hslot] at hrel
    rcases hentry : s.entry (e.connectorId, e.businessKey) with _ | x <;> rw [hentry] at hrel
    · exact hentry
    · cases hrel
  refine ⟨s.put e.slot e .booked, .book hfree, ?_, ?_⟩
  · intro c k
    refine h.rows_of_changed hk hk' (r := e.toRow w.clock) ?_ ?_ ?_ (.received rfl) c k
    · exact (w.insertEvent_lookup e e.id).trans (if_pos rfl)
    · exact fun id hne => (w.insertEvent_lookup e id).trans (if_neg hne)
    · intro x hx
      have hnone : w.events.lookup (e.toRow w.clock).id = none := hid
      rw [hnone] at hx
      cases hx
  · refine h.outbox.imp fun record notice => ?_
    rintro ⟨n, companyId, reason, hn, hs, hrec⟩
    refine ⟨n, companyId, reason, ?_, hs, hrec⟩
    rw [Hub.insertEvent_source?, if_neg, hn]
    intro heq
    rw [heq, Hub.source?, hid] at hn
    cases hn

/-- What the retry writes outside a transaction drops a failed message, or tells nothing. -/
theorem Shows.autocommit {w : Hub} {s : Inbox Slot NewEventRow MappedRef} (h : Shows w s)
    (hk : w.Keyed) {id : Uuid} {u : EventUpdate} (hk' : (w.apply (.update id u)).Keyed)
    {row : EventRow} (hrow : w.target id u = some row)
    (hu : (∃ reason, u = .retryMarkIgnored reason) ∨ ∃ d, u = .setErrorDetail d) :
    Shows (w.apply (.update id u)) s ∨ ∃ s', Inbox.Step s s' ∧ Shows (w.apply (.update id u)) s' := by
  obtain ⟨hlookup, hst⟩ := Hub.target_eq_some.mp hrow
  obtain rfl : row.id = id := hk.id_eq id row.source (by rw [Hub.source?, hlookup, Option.map_some])
  have hshows {p : Phase MappedRef} (hp : (u.set row).InPhase p) :
      Shows (w.apply (.update row.id u)) (s.put row.source.slot row.source p) := by
    constructor
    · exact h.rows_of_set hk hk' hlookup (w.apply_lookup row.id u) hp
    · rw [Hub.apply_update_outbox]
      exact h.outbox.imp fun _ _ => Tells.mono (Hub.apply_source? w _)
  obtain ⟨p, hentry, hp⟩ := h.entry_of_row hk hlookup
  rcases hu with ⟨reason, rfl⟩ | ⟨d, rfl⟩
  · obtain rfl := failed_of_failed hp hst
    exact .inr ⟨_, .drop hentry, hshows (.ignored rfl)⟩
  · obtain rfl := failed_of_failed hp hst
    have hsame := hshows (p := .settled .failed) (.failed hst)
    rw [put_of_entry hentry] at hsame
    exact .inl hsame

theorem shows_step (hinit : ∀ w, init w → w.Idle) (h : Reach (system json) init ok cfg)
    {l : Label (system json)} (hok : ok cfg l) (hs : Step (system json) cfg l cfg')
    {s : Inbox Slot NewEventRow MappedRef} (hR : Shows cfg.world s) :
    Shows cfg'.world s ∨ ∃ s', Inbox.Step s s' ∧ Shows cfg'.world s' := by
  have hkeyed : ∀ w, init w → w.Keyed := fun w hw => (hinit w hw).keyed
  have hk : Hub.Keyed cfg.world := keyed_of_reach hkeyed h
  have hk' : Hub.Keyed cfg'.world := keyed_of_reach hkeyed (h.step hok hs)
  cases hs with
  | start ht | finish ht | crash ht => exact .inl (hR.of_same rfl rfl)
  | env hw =>
    obtain ⟨he, ho, -⟩ := env_keeps hw
    exact .inl (hR.of_same he ho)
  | @op t c op ans k w ht hw =>
    cases Hub.next_change hw with
    | quiet hq | queue hrow hfree | stage | rollback => exact .inl (hR.of_same rfl rfl)
    | insert hslot hid => exact .inr (hR.insertEvent hk hk' hslot hid)
    | commit =>
      obtain ⟨n, u, v, hset⟩ := settling_of_commit hinit h ht
      exact .inr (hR.commit (locked_of_reach hinit h) hk hk' hset)
    | update hrow hfree => exact hR.autocommit hk hk' hrow (autocommit_cases h ht)

theorem shows_fresh {w : Hub} (h : w.Fresh) : Shows w Inbox.empty := by
  obtain ⟨he, ho, -⟩ := h
  constructor
  · intro c k
    have hnone : w.byKey c k = none := by
      simp [Hub.byKey_eq_none, Hub.source?, he]
    rw [hnone]
    exact .none
  · rw [ho]
    exact .nil

theorem inbox_simulation : Simulation (system json) Hub.Fresh ok (· = Inbox.empty) Inbox.Step
    (fun cfg s => Shows cfg.world s) where
  start hw := ⟨Inbox.empty, rfl, shows_fresh hw⟩
  step hr hok hs hR := shows_step (fun _ => Hub.idle_of_fresh) hr hok hs hR

/-- **The intake is an inbox.** Whatever the calls do and however they interleave and crash, the events
table and the outbox show an inbox that got there by its own steps: each event is booked once under its
connector and business key, settled once, and announced as it was settled. -/
theorem intake_refines (h : Reach (system json) Hub.Fresh ok cfg) :
    ∃ s, Relation.ReflTransGen Inbox.Step Inbox.empty s ∧ Shows cfg.world s := by
  obtain ⟨_, s, rfl, hsteps, hR⟩ := inbox_simulation.reach h
  exact ⟨s, hsteps, hR⟩

/-! A rejected payment that is booked on the retry has both records. -/

def bothRecords : List OutboxRecord :=
  [(rejectedPayment.event payment).record, bookedPayment.record]

theorem booked_reach : ∃ cfg, Reach (system textJson) Hub.Fresh (fun _ _ => True) cfg ∧
    Hub.records cfg.world 10 = bothRecords ∧
    ∃ r, (Hub.events cfg.world).lookup 10 = some r ∧ r.status = .mapped := by
  have hrun : (replay (fun _ _ => True) (Config.init twoConnectors) retryMapped).any fun cfg =>
      Hub.records cfg.world 10 = bothRecords ∧ Hub.status? cfg.world 10 = some .mapped := by decide
  obtain ⟨cfg, hcfg, hboth⟩ := (Option.any_eq_true ..).mp hrun
  obtain ⟨hrecords, hst⟩ := of_decide_eq_true hboth
  exact ⟨cfg, .replay (.init twoConnectors_fresh) hcfg, hrecords, Option.map_eq_some_iff.mp hst⟩

theorem intake_refines_booked : ∃ (cfg : Config (system textJson)) (s : _),
    Hub.records cfg.world 10 = bothRecords ∧
      Relation.ReflTransGen Inbox.Step Inbox.empty s ∧ Shows cfg.world s := by
  obtain ⟨cfg, hr, hrecords, -⟩ := booked_reach
  obtain ⟨s, hsteps, hR⟩ := intake_refines hr
  exact ⟨cfg, s, hrecords, hsteps, hR⟩

/-! ## What the outbox says of a row -/

end BackboneIntegrations.Intake
