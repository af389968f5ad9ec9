import BackboneIntegrations.Intake.Hub

/-!
# What one step does to the tables

Every statement does one of seven things to the hub. What a row was inserted from never
changes, and the unique index holds in every run.
-/

open Interleave

namespace BackboneIntegrations.Intake

variable {V : Type}

/-! ## The columns that no statement changes -/

def EventRow.source (r : EventRow) : NewEventRow :=
  ⟨r.id, r.connectorId, r.eventType, r.externalId, r.businessKey, r.payload⟩

@[simp] theorem toRow_source (e : NewEventRow) (clock : Time) : (e.toRow clock).source = e := rfl
@[simp] theorem toRow_status (e : NewEventRow) (clock : Time) :
    (e.toRow clock).status = .received := rfl
@[simp] theorem set_source (u : EventUpdate) (r : EventRow) : (u.set r).source = r.source := by
  cases u <;> rfl

namespace Hub

def source? (w : Hub) (id : Uuid) : Option NewEventRow := (w.events.lookup id).map (·.source)

def status? (w : Hub) (id : Uuid) : Option IntegrationStatus :=
  (w.events.lookup id).map (·.status)

theorem source?_eq_some {w : Hub} {id : Uuid} {n : NewEventRow} :
    w.source? id = some n ↔ ∃ r, w.events.lookup id = some r ∧ r.source = n := by
  simp [source?]

theorem apply_lookup (w : Hub) (x : Uuid) (u : EventUpdate) (id : Uuid) :
    (w.apply (.update x u)).events.lookup id =
      if id = x then (w.events.lookup id).map u.set else w.events.lookup id := by
  simp only [apply]
  split
  · rename_i row hrow
    rw [Table.lookup_insert_ite]
    split
    · subst_vars
      simp [hrow]
    · rfl
  · rename_i hrow
    split
    · subst_vars
      simp [hrow]
    · rfl

@[simp] theorem apply_stage_events (w : Hub) (record : OutboxRecord) :
    (w.apply (.stage record)).events = w.events := rfl

@[simp] theorem apply_stage_outbox (w : Hub) (record : OutboxRecord) :
    (w.apply (.stage record)).outbox = w.outbox ++ [record] := rfl

@[simp] theorem apply_update_outbox (w : Hub) (x : Uuid) (u : EventUpdate) :
    (w.apply (.update x u)).outbox = w.outbox := by
  simp only [apply]
  split <;> rfl

@[simp] theorem apply_source? (w : Hub) (wr : Write) : (w.apply wr).source? = w.source? := by
  funext id
  cases wr with
  | stage record => rfl
  | update x u =>
    simp only [source?, apply_lookup]
    split <;> simp [Function.comp_def]

@[simp] theorem apply_txs (w : Hub) (wr : Write) : (w.apply wr).txs = w.txs := by
  cases wr with
  | stage record => rfl
  | update x u =>
    simp only [apply]
    split <;> rfl

@[simp] theorem apply_connectors (w : Hub) (wr : Write) :
    (w.apply wr).connectors = w.connectors := by
  cases wr with
  | stage record => rfl
  | update x u =>
    simp only [apply]
    split <;> rfl

theorem foldl_connectors (ws : List Write) (w : Hub) :
    (ws.foldl apply w).connectors = w.connectors := by
  induction ws generalizing w with
  | nil => rfl
  | cons wr ws ih => rw [List.foldl_cons, ih, apply_connectors]

theorem foldl_source? (ws : List Write) (w : Hub) : (ws.foldl apply w).source? = w.source? := by
  induction ws generalizing w with
  | nil => rfl
  | cons wr ws ih => rw [List.foldl_cons, ih, apply_source?]

@[simp] theorem commit_source? (w : Hub) (t : Tid) : (w.commit t).source? = w.source? :=
  foldl_source? _ w

@[simp] theorem commit_txs (w : Hub) (t : Tid) : (w.commit t).txs = w.txs.clear t := rfl

@[simp] theorem commit_events (w : Hub) (t : Tid) :
    (w.commit t).events = ((w.txs.writes t).foldl apply w).events := rfl

@[simp] theorem commit_outbox (w : Hub) (t : Tid) :
    (w.commit t).outbox = ((w.txs.writes t).foldl apply w).outbox := rfl

theorem insertEvent_lookup (w : Hub) (e : NewEventRow) (id : Uuid) :
    (w.insertEvent e).events.lookup id =
      if id = e.id then some (e.toRow w.clock) else w.events.lookup id :=
  Table.lookup_insert_ite ..

theorem insertEvent_source? (w : Hub) (e : NewEventRow) (id : Uuid) :
    (w.insertEvent e).source? id = if id = e.id then some e else w.source? id := by
  simp only [source?, insertEvent_lookup]
  split <;> rfl

theorem byKey_eq_none {w : Hub} {c : Uuid} {k : String} :
    w.byKey c k = none ↔
      ∀ id n, w.source? id = some n → ¬(n.connectorId = c ∧ n.businessKey = k) := by
  simp only [byKey, List.find?_eq_none, Table.mem_rows, decide_eq_true_eq, source?_eq_some]
  constructor
  · rintro h id n ⟨r, hr, rfl⟩
    exact h r ⟨id, hr⟩
  · rintro h r ⟨id, hr⟩
    exact h id _ ⟨r, hr, rfl⟩

theorem byKey_eq_some {w : Hub} {c : Uuid} {k : String} {r : EventRow} (h : w.byKey c k = some r) :
    ∃ id, w.events.lookup id = some r ∧ r.connectorId = c ∧ r.businessKey = k := by
  have hp := List.find?_some h
  obtain ⟨id, hid⟩ := (Table.mem_rows _ _).mp (List.mem_of_find?_eq_some h)
  simp only [decide_eq_true_eq] at hp
  exact ⟨id, hid, hp.1, hp.2⟩

theorem target_eq_some {w : Hub} {id : Uuid} {u : EventUpdate} {row : EventRow} :
    w.target id u = some row ↔ w.events.lookup id = some row ∧ row.status = u.guard := by
  simp [target, Option.filter_eq_some_iff]

/-! ## The seven cases -/

/-- The answers that go with no write of their own. -/
def Quiet : (op : Op V) → Ans op → Prop
  | .claimEvent _, .ok (some _) | .stage _, .ok () | .commit, .ok () | .rollback, .ok () => False
  | .updateTx .., .ok n | .update .., .ok n => n = 0
  | _, _ => True

inductive Change (t : Tid) (w : Hub) : (op : Op V) → Ans op → Hub → Prop
  | quiet {op ans} (hq : Quiet op ans) : Change t w op ans w
  | insert {e} (hk : w.byKey e.connectorId e.businessKey = none)
    (hid : w.events.lookup e.id = none) :
    Change t w (.claimEvent e) (.ok (some e.id)) (w.insertEvent e)
  | queue {id u row} (hrow : w.target id u = some row) (hfree : w.txs.FreeFor t id) :
    Change t w (.updateTx id u) (.ok 1) { w with txs := (w.txs.lock t id).push t (.update id u) }
  | stage {record} :
    Change t w (.stage record) (.ok ()) { w with txs := w.txs.push t (.stage record) }
  | commit : Change t w .commit (.ok ()) (w.commit t)
  | rollback : Change t w .rollback (.ok ()) { w with txs := w.txs.clear t }
  | update {id u row} (hrow : w.target id u = some row) (hfree : w.txs.holder id = none) :
    Change t w (.update id u) (.ok 1) (w.apply (.update id u))

theorem next_change {t : Tid} {op : Op V} {ans : Ans op} {w w' : Hub}
    (h : Hub.next t op ans w = some w') : Change t w op ans w' := by
  cases op with
  | claimEvent e =>
    rcases ans with err | (_ | id)
    · cases h
      exact .quiet trivial
    · simp only [Hub.next] at h
      split at h <;> cases h
      exact .quiet trivial
    · simp only [Hub.next] at h
      split at h <;> cases h
      obtain ⟨rfl, hk, hid⟩ := ‹_›
      exact .insert hk hid
  | updateTx id u =>
    rcases ans with err | n
    · cases h
      exact .quiet trivial
    · simp only [Hub.next] at h
      split at h <;> split at h <;> cases h
      · obtain ⟨rfl, hfree⟩ := ‹_ ∧ _›
        exact .queue ‹_› hfree
      · exact .quiet ‹_›
  | update id u =>
    rcases ans with err | n
    · cases h
      exact .quiet trivial
    · simp only [Hub.next] at h
      split at h <;> split at h <;> cases h
      · obtain ⟨rfl, hfree⟩ := ‹_ ∧ _›
        exact .update ‹_› hfree
      · exact .quiet ‹_›
  | stage record =>
    rcases ans with err | ⟨⟩ <;> cases h
    · exact .quiet trivial
    · exact .stage
  | commit =>
    rcases ans with err | ⟨⟩ <;> cases h
    · exact .quiet trivial
    · exact .commit
  | rollback =>
    rcases ans with err | ⟨⟩ <;> cases h
    · exact .quiet trivial
    · exact .rollback
  | fetchGate c | fetchForRetry c | fetchByBusinessKey c k | fetchFailed c =>
    rcases ans with err | a
    · cases h
      exact .quiet trivial
    · simp only [Hub.next, Option.ite_none_right_eq_some, Option.some.injEq] at h
      obtain ⟨-, rfl⟩ := h
      exact .quiet trivial
  | begin =>
    rcases ans with err | ⟨⟩ <;> cases h <;> exact .quiet trivial
  | newUuid | map req | publish ev =>
    cases h
    exact .quiet trivial

/-! ## The unique index -/

/-- Every row is under its own id, and `(connector_id, business_key)` is unique. -/
structure Keyed (w : Hub) : Prop where
  id_eq : ∀ id n, w.source? id = some n → n.id = id
  unique : ∀ id id' n n', w.source? id = some n → w.source? id' = some n' →
    n.connectorId = n'.connectorId → n.businessKey = n'.businessKey → id = id'

theorem Keyed.of_source? {w w' : Hub} (h : w.Keyed) (hs : w'.source? = w.source?) : w'.Keyed :=
  ⟨hs ▸ h.id_eq, hs ▸ h.unique⟩

theorem Keyed.insertEvent {w : Hub} (h : w.Keyed) {e : NewEventRow}
    (hk : w.byKey e.connectorId e.businessKey = none) : (w.insertEvent e).Keyed := by
  have hnew := byKey_eq_none.mp hk
  constructor
  · intro id n hn
    rw [insertEvent_source?] at hn
    split at hn
    · cases hn
      exact Eq.symm ‹_›
    · exact h.id_eq id n hn
  · intro id id' n n' hn hn' hc hb
    rw [insertEvent_source?] at hn hn'
    split at hn <;> split at hn'
    · subst_vars
      rfl
    · cases hn
      exact absurd ⟨hc.symm, hb.symm⟩ (hnew id' n' hn')
    · cases hn'
      exact absurd ⟨hc, hb⟩ (hnew id n hn)
    · exact h.unique id id' n n' hn hn' hc hb

end Hub

/-! ## Steps of the system -/

variable {json : JsonCodec V} {cfg cfg' : Config (system json)} {l : Label (system json)}

theorem env_keeps {e : Env} {w w' : Hub} (h : (system json).env e w = some w') :
    w'.events = w.events ∧ w'.outbox = w.outbox ∧ w'.txs = w.txs := by
  cases e with
  | tick clock =>
    simp only [system, Hub.env, Option.ite_none_right_eq_some, Option.some.injEq] at h
    rw [← h.2]
    exact ⟨rfl, rfl, rfl⟩
  | setConnector id row =>
    cases h
    exact ⟨rfl, rfl, rfl⟩

/-- A step keeps what every row was inserted from, or it inserts one row with a new key. -/
theorem source?_step (hs : Step (system json) cfg l cfg') :
    Hub.source? cfg'.world = Hub.source? cfg.world ∨
      ∃ t e, l = .op t (.claimEvent e) (.ok (some e.id)) ∧
        Hub.byKey cfg.world e.connectorId e.businessKey = none ∧
        Hub.source? cfg.world e.id = none ∧ cfg'.world = Hub.insertEvent cfg.world e := by
  cases hs with
  | start ht | finish ht | crash ht => exact .inl rfl
  | env hw =>
    left
    funext id
    simp only [Hub.source?, (env_keeps hw).1]
  | @op t c op ans k w ht hw =>
    cases Hub.next_change hw with
    | insert hk hid => exact .inr ⟨t, _, rfl, hk, by simp [Hub.source?, hid], rfl⟩
    | quiet hq | queue hrow hfree | stage | rollback => exact .inl rfl
    | commit => exact .inl (Hub.commit_source? _ t)
    | update hrow hfree => exact .inl (Hub.apply_source? _ _)

theorem source?_mono (hs : Step (system json) cfg l cfg') {id : Uuid} {n : NewEventRow}
    (h : Hub.source? cfg.world id = some n) : Hub.source? cfg'.world id = some n := by
  rcases source?_step hs with he | ⟨t, e, -, -, hid, he⟩
  · rw [he, h]
  · rw [he, Hub.insertEvent_source?, if_neg, h]
    rintro rfl
    simp [hid] at h

variable {init : Hub → Prop} {ok : Config (system json) → Label (system json) → Prop}

theorem keyed_of_reach (hinit : ∀ w, init w → w.Keyed) (h : Reach (system json) init ok cfg) :
    Hub.Keyed cfg.world := by
  induction h with
  | init h => exact hinit _ h
  | step _ _ hs ih =>
    rcases source?_step hs with he | ⟨t, e, -, hk, -, he⟩
    · exact ih.of_source? he
    · rw [he]
      exact ih.insertEvent hk

theorem keyed_of_fresh {w : Hub} (h : w.Fresh) : w.Keyed := by
  constructor <;> simp [Hub.source?, h.1]

end BackboneIntegrations.Intake
