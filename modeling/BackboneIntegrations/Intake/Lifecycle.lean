import BackboneIntegrations.Intake.Outbox

/-!
# The lifecycle and the shape of an event row

Every update is guarded by the status of its row, so the status moves along five edges, and
each status keeps its own columns.
-/

open Interleave

namespace BackboneIntegrations.Intake

variable {V : Type} {json : JsonCodec V} {init : Hub → Prop}
  {ok : Config (system json) → Label (system json) → Prop} {cfg cfg' : Config (system json)}

/-! ## What a step does to one row -/

/-- A row of the table after a step is old, new, or updated under its guard. -/
theorem row_step (hinit : ∀ w, init w → w.Idle) (h : Reach (system json) init ok cfg)
    {l : Label (system json)} (hs : Step (system json) cfg l cfg') {id : Uuid} {r : EventRow}
    (hr : (Hub.events cfg'.world).lookup id = some r) :
    (Hub.events cfg.world).lookup id = some r ∨
      ((Hub.events cfg.world).lookup id = none ∧
        ∃ e : NewEventRow, r = e.toRow (Hub.clock cfg.world)) ∨
      ∃ t u row, (Hub.events cfg.world).lookup id = some row ∧ row.status = u.guard ∧
        r = u.set row ∧ ((∃ n, cfg.Did t (.updateTx id u) (.ok n)) ∨
          (∃ reason, u = .retryMarkIgnored reason) ∨ ∃ d, u = .setErrorDetail d) := by
  cases hs with
  | start ht | finish ht | crash ht => exact .inl hr
  | env hw =>
    left
    rw [← (env_keeps hw).1]
    exact hr
  | @op t c op ans k w ht hw =>
    rw [Config.put_world] at hr
    cases Hub.next_change hw with
    | quiet hq | queue hrow hfree | stage | rollback => exact .inl hr
    | @insert e hk hid =>
      rw [Hub.insertEvent_lookup] at hr
      split at hr
      · cases hr
        subst_vars
        exact .inr (.inl ⟨hid, e, rfl⟩)
      · exact .inl hr
    | commit =>
      obtain ⟨u, ev, -, hwr⟩ := commit_writes hinit h ht
      have hu : .update ev.eventId u ∈ (Hub.txs cfg.world).writes t := hwr ▸ List.mem_cons_self
      simp only [Hub.commit_events, hwr, List.foldl_cons, List.foldl_nil,
        Hub.apply_stage_events, Hub.apply_lookup] at hr
      split at hr
      · subst_vars
        obtain ⟨row, hrow, rfl⟩ := Option.map_eq_some_iff.mp hr
        -- The transaction holds the row, so it still has the status of the guard.
        have hg := (locked_of_reach hinit h).guarded hu
        rw [Hub.status?, hrow] at hg
        exact .inr (.inr ⟨t, u, row, hrow, Option.some.inj hg, rfl, .inl (did_of_writes hinit h hu)⟩)
      · exact .inl hr
    | @update x u row hrow hfree =>
      rw [Hub.apply_lookup] at hr
      split at hr
      · subst_vars
        obtain ⟨hrow, hst⟩ := Hub.target_eq_some.mp hrow
        rw [hrow] at hr
        cases hr
        exact .inr (.inr ⟨t, u, row, hrow, hst, rfl, .inr (autocommit_cases h ht)⟩)
      · exact .inl hr

/-! ## The edges and the shape -/

inductive Edge : IntegrationStatus → IntegrationStatus → Prop
  | map : Edge .received .mapped
  | ignore : Edge .received .ignored
  | fail : Edge .received .failed
  | remap : Edge .failed .mapped
  | reignore : Edge .failed .ignored

/-- A status that no edge leaves. -/
def IntegrationStatus.Terminal (a : IntegrationStatus) : Prop := a = .mapped ∨ a = .ignored

/-- What a step does to the status of a row. -/
inductive RowStep (w w' : Hub) (id : Uuid) : Prop
  | kept (h : w'.status? id = w.status? id)
  | inserted (hb : w.status? id = none) (ha : w'.status? id = some .received)
  | moved {a b} (hb : w.status? id = some a) (ha : w'.status? id = some b) (he : Edge a b)

structure EventRow.Shaped (r : EventRow) : Prop where
  refType : r.mappedRefType ≠ none ↔ r.status = .mapped
  refId : r.mappedRefId ≠ none ↔ r.status = .mapped
  clean : r.status = .received ∨ r.status = .mapped → r.errorDetail = none
  detailed : r.status = .ignored ∨ r.status = .failed → r.errorDetail ≠ none

def Hub.Shaped (w : Hub) : Prop := ∀ id, ∀ r ∈ w.events.lookup id, r.Shaped

theorem toRow_shaped (e : NewEventRow) (clock : Time) : (e.toRow clock).Shaped := by
  constructor <;> simp [NewEventRow.toRow]

theorem set_edge {u : EventUpdate} {r : EventRow} (hg : r.status = u.guard) :
    (u.set r).status = r.status ∨ Edge r.status (u.set r).status := by
  cases u with
  | setErrorDetail d => exact .inl rfl
  | _ =>
    right
    rw [hg]
    constructor

theorem set_shaped {u : EventUpdate} {r : EventRow} (h : r.Shaped) (hg : r.status = u.guard) :
    (u.set r).Shaped := by
  obtain ⟨htype, hid, hclean, -⟩ := h
  rw [hg] at htype hid hclean
  cases u with
  | markMapped t i =>
    have he := hclean (.inl rfl)
    constructor <;> simp [EventUpdate.set, he]
  | retryMarkMapped t i => constructor <;> simp [EventUpdate.set]
  | markIgnored reason | markFailed d | retryMarkIgnored reason =>
    constructor <;> simp_all [EventUpdate.set, EventUpdate.guard]
  | setErrorDetail d => constructor <;> simp_all [EventUpdate.set, EventUpdate.guard]

/-! ## Every step of every run -/

theorem shaped_of_reach (hinit : ∀ w, init w → w.Idle) (hshape : ∀ w, init w → w.Shaped)
    (h : Reach (system json) init ok cfg) : Hub.Shaped cfg.world := by
  induction h with
  | init h => exact hshape _ h
  | step h _ hs ih =>
    intro id r hr
    rcases row_step hinit h hs hr with hr | ⟨-, e, rfl⟩ | ⟨t, u, row, hrow, hg, rfl, -⟩
    · exact ih id r hr
    · exact toRow_shaped e _
    · exact set_shaped (ih id row hrow) hg

theorem status_step (hinit : ∀ w, init w → w.Idle) (h : Reach (system json) init ok cfg)
    {l : Label (system json)} (hs : Step (system json) cfg l cfg') (id : Uuid) :
    RowStep cfg.world cfg'.world id := by
  cases hr : (Hub.events cfg'.world).lookup id with
  | none =>
    refine .kept ?_
    cases hb : Hub.source? cfg.world id with
    | none => simp_all [Hub.status?, Hub.source?]
    | some n =>
      have ha := source?_mono hs hb
      simp [Hub.source?, hr] at ha
  | some r =>
    have ha : Hub.status? cfg'.world id = some r.status := by rw [Hub.status?, hr, Option.map_some]
    rcases row_step hinit h hs hr with hr | ⟨hnone, e, rfl⟩ | ⟨t, u, row, hrow, hg, rfl, -⟩
    · exact .kept (by rw [ha, Hub.status?, hr, Option.map_some])
    · exact .inserted (Hub.status?_eq_none.mpr hnone) ha
    · have hb : Hub.status? cfg.world id = some row.status := by
        rw [Hub.status?, hrow, Option.map_some]
      rcases set_edge hg with heq | hedge
      · exact .kept (by rw [ha, hb, heq])
      · exact .moved hb ha hedge

/-- **The lifecycle and the shape of an event row.** Each step of a run inserts a received row, moves
the status of a row along an edge, or keeps it; a terminal status stays for the rest of the run; and
the columns of every row are those of its status. -/
theorem event_lifecycle (hinit : ∀ w, init w → w.Idle) (hshape : ∀ w, init w → w.Shaped)
    {newer older : List (Taken (system json))} {s : Taken (system json)}
    (h : Run (system json) init ok (newer ++ s :: older) cfg) (id : Uuid) :
    RowStep s.before.world s.after.world id ∧
    (∀ a : IntegrationStatus, Hub.status? s.before.world id = some a → a.Terminal →
      Hub.status? cfg.world id = some a) ∧
    Hub.Shaped s.before.world ∧ Hub.Shaped cfg.world := by
  obtain ⟨hold, -, hs⟩ := h.split
  refine ⟨status_step hinit hold.reach hs id, ?_, shaped_of_reach hinit hshape hold.reach,
    shaped_of_reach hinit hshape h.reach⟩
  intro a ha hterm
  have keep : ∀ {c l c'}, Reach (system json) init ok c → Step (system json) c l c' →
      Hub.status? c.world id = some a → Hub.status? c'.world id = some a := by
    intro c l c' hc hst hb
    cases status_step hinit hc hst id with
    | kept hk => rw [hk, hb]
    | inserted hn _ => rw [hb] at hn; cases hn
    | moved hb' _ hedge =>
      rw [hb] at hb'
      cases hb'
      rcases hterm with rfl | rfl <;> cases hedge
  exact (h.keeps (P := fun c => Hub.status? c.world id = some a) (keep hold.reach hs ha)
    fun hc _ hst => keep hc hst).1

theorem fresh_shaped {w : Hub} (h : w.Fresh) : w.Shaped := by
  intro id r hr
  rw [h.1] at hr
  cases hr

theorem event_lifecycle_ignored : ∃ s : Taken (system textJson),
    s.label = markIgnored ∧ RowStep s.before.world s.after.world 10 ∧
    (∀ a : IntegrationStatus, Hub.status? s.before.world 10 = some a → a.Terminal →
      Hub.status? s.after.world 10 = some a) ∧
    Hub.Shaped s.before.world ∧ Hub.Shaped s.after.world := by
  obtain ⟨tr, htr⟩ := ignored_run
  have hrun : Run (system textJson) (· = twoConnectors) (fun _ _ => True) ([] ++ _ :: tr) _ := htr
  refine ⟨_, rfl, event_lifecycle ?_ ?_ hrun 10⟩
  · rintro w rfl
    exact Hub.idle_of_fresh twoConnectors_fresh
  · rintro w rfl
    exact fresh_shaped twoConnectors_fresh

end BackboneIntegrations.Intake
