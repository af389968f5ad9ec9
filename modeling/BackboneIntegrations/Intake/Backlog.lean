import Mathlib.Data.List.Perm.Basic
import BackboneIntegrations.Interleave.Solo
import BackboneIntegrations.Intake.Declared

/-!
# One retry over the whole backlog

`retry_failed` alone, on a database with the declared constraints. The loop leaves at the first
error of the database, so an answer that does not fit its column keeps the later events from the
target.
-/

open Interleave

namespace BackboneIntegrations.Intake

variable {V : Type}

/-- The target answers each request as `answer` says, and statements fail on constraints only. -/
def answered (answer : MapRequest V → Except MapRejected MapOutcome) (w : Hub) :
    (op : Op V) → Ans op → Prop
  | .map req, ans => ans = answer req
  | op, ans => w.declaredAnswer op ans

/-- The update that `retry_failed` runs for an answer. -/
def retryUpdate : Except MapRejected MapOutcome → EventUpdate
  | .ok (.mapped r) => .retryMarkMapped r.internalRefType r.internalRefId
  | .ok (.ignored reason) => .retryMarkIgnored reason
  | .error rej => .setErrorDetail rej.message

theorem retryUpdate_declared (ans : Except MapRejected MapOutcome) :
    (retryUpdate ans).declared = fits ans := by
  unfold retryUpdate fits
  split <;> rfl

/-- The requests of a call, newest first. -/
def requests (h : Past V) : List (MapRequest V) :=
  h.filterMap fun
    | ⟨.map req, _⟩ => some req
    | _ => none

/-- A database whose rows all pass their checks, with no transaction open. -/
structure Hub.Sound (w : Hub) : Prop where
  idle : w.Idle
  declared : ∀ id r, w.events.lookup id = some r → r.declared

section

variable (json : JsonCodec V) (answer : MapRequest V → Except MapRejected MapOutcome) (co cn : Uuid)
  (kind : ConnectorKind) (t : Tid) (w : Hub)

/-- What the target says to the retry of a row. -/
def reply (r : EventRow) : Except MapRejected MapOutcome :=
  answer (r.toFailed.mapRequest json co kind)

/-- The row after its retry. -/
def afterRetry (r : EventRow) : EventRow := (retryUpdate (reply json answer co kind r)).set r

/-- **One failed event never blocks the others.** Every failed event was asked once and settled as
the target answered, and no other row has changed. -/
structure Covered (w' : Hub) (h : Past V) (res : Except IntegrationError Nat) : Prop where
  returned : ∃ n, res = .ok n
  asked : (requests h).Perm ((w.failedRows cn).map (·.toFailed.mapRequest json co kind))
  rows : ∀ id, w'.events.lookup id = (w.events.lookup id).map fun r =>
    if r.connectorId = cn ∧ r.status = .failed then afterRetry json answer co kind r else r

/-- Where the loop is when the rows of `done` are settled. -/
structure Swept (done : List EventRow) (s : Hub × Past V) : Prop where
  rows : ∀ id, s.1.events.lookup id = (w.events.lookup id).map fun r =>
    if r ∈ done then afterRetry json answer co kind r else r
  free : ∀ id, s.1.txs.holder id = none
  closed : s.1.txs.writes t = []
  asked : requests s.2 = (done.map (·.toFailed.mapRequest json co kind)).reverse

variable {json answer co cn kind t w}

theorem mem_failedRows {w : Hub} (hw : w.Sound) {r : EventRow} (hr : r ∈ w.failedRows cn) :
    w.events.lookup r.id = some r ∧ r.connectorId = cn ∧ r.status = .failed := by
  simp only [Hub.failedRows, List.mem_filter, Table.mem_rows, decide_eq_true_eq] at hr
  obtain ⟨⟨id, hid⟩, hc, hs⟩ := hr
  have hkey : r.id = id := hw.idle.keyed.id_eq id _ (Hub.source?_eq_some.mpr ⟨r, hid, rfl⟩)
  exact ⟨hkey ▸ hid, hc, hs⟩

namespace Swept

variable {done : List EventRow} {s : Hub × Past V} {r : EventRow} {u : EventUpdate}

theorem target (h : Swept json answer co kind t w done s) (hw : w.Sound)
    (hr : r ∈ w.failedRows cn) (hnew : r ∉ done) (hu : u.guard = .failed) :
    s.1.target r.id u = some r := by
  obtain ⟨hrow, -, hst⟩ := mem_failedRows hw hr
  refine Hub.target_eq_some.mpr ⟨?_, hst.trans hu.symm⟩
  rw [h.rows, hrow, Option.map_some, if_neg hnew]

theorem checks (h : Swept json answer co kind t w done s) (hw : w.Sound)
    (hr : r ∈ w.failedRows cn) (hnew : r ∉ done) (hu : u.guard = .failed) :
    s.1.checks r.id u = u.declared := by
  obtain ⟨hrow, -, -⟩ := mem_failedRows hw hr
  rw [Hub.checks, h.target hw hr hnew hu, Option.all_some, set_declared (hw.declared _ _ hrow)]

theorem settle (h : Swept json answer co kind t w done s) (hw : w.Sound)
    (hr : r ∈ w.failedRows cn) (hnew : r ∉ done) {s' : Hub × Past V}
    (hrows : ∀ id, s'.1.events.lookup id =
      (s.1.apply (.update r.id (retryUpdate (reply json answer co kind r)))).events.lookup id)
    (hfree : ∀ id, s'.1.txs.holder id = none) (hclosed : s'.1.txs.writes t = [])
    (hasked : requests s'.2 = r.toFailed.mapRequest json co kind :: requests s.2) :
    Swept json answer co kind t w (done ++ [r]) s' := by
  obtain ⟨hrow, -, -⟩ := mem_failedRows hw hr
  refine ⟨fun id => ?_, hfree, hclosed, by simp [hasked, h.asked]⟩
  rw [hrows, Hub.apply_lookup, h.rows]
  split
  · subst_vars
    simp [hrow, hnew, afterRetry]
  · rename_i hne
    refine Option.map_congr fun r' hr' => ?_
    have hne' : r' ≠ r := by
      rintro rfl
      have hkey : r'.id = id := hw.idle.keyed.id_eq id _ (Hub.source?_eq_some.mpr ⟨r', hr', rfl⟩)
      exact hne hkey.symm
    simp [hne']

end Swept

/-! ## The operations of a retry -/

section

variable {α : Type} {s : Hub × Past V} {Q : α → Hub × Past V → Prop}

/-- `retry_failed` on its own. -/
def alone (answer : MapRequest V → Except MapRejected MapOutcome) (t : Tid) :
    Contract (Sig V) (Hub × Past V) := .alone (Hub.next t) (answered answer)

theorem alone_map {req : MapRequest V} {k} :
    Meets (alone answer t) (.call (S := Sig V) (.map req) k) s Q ↔
      Meets (alone answer t) (k (answer req)) (s.1, ⟨.map req, answer req⟩ :: s.2) Q :=
  meets_alone _ _ rfl rfl fun _ _ ha _ => ha

theorem alone_publish {ev : IntegrationEvent} {k} :
    Meets (alone answer t) (.call (S := Sig V) (.publish ev) k) s Q ↔
      Meets (alone answer t) (k ()) (s.1, ⟨.publish ev, ()⟩ :: s.2) Q :=
  meets_alone _ _ rfl rfl fun _ _ _ _ => rfl

theorem alone_begin {k} :
    Meets (alone answer t) (.call (S := Sig V) .begin k) s Q ↔
      Meets (alone answer t) (k (.ok ())) (s.1, ⟨.begin, .ok ()⟩ :: s.2) Q := by
  refine meets_alone _ _ rfl rfl ?_
  rintro (err | ⟨⟩) _ ha -
  · simp [answered, Hub.declaredAnswer] at ha
  · rfl

theorem alone_stage {record : OutboxRecord} {k} :
    Meets (alone answer t) (.call (S := Sig V) (.stage record) k) s Q ↔
      Meets (alone answer t) (k (.ok ()))
        ({ s.1 with txs := s.1.txs.push t (.stage record) }, ⟨.stage record, .ok ()⟩ :: s.2) Q := by
  refine meets_alone _ _ rfl rfl ?_
  rintro (err | ⟨⟩) _ ha -
  · simp [answered, Hub.declaredAnswer] at ha
  · rfl

theorem alone_commit {k} :
    Meets (alone answer t) (.call (S := Sig V) .commit k) s Q ↔
      Meets (alone answer t) (k (.ok ())) (s.1.commit t, ⟨.commit, .ok ()⟩ :: s.2) Q := by
  refine meets_alone _ _ rfl rfl ?_
  rintro (err | ⟨⟩) _ ha -
  · simp [answered, Hub.declaredAnswer] at ha
  · rfl

theorem alone_fetchForRetry {c : Uuid} {k} :
    Meets (alone answer t) (.call (S := Sig V) (.fetchForRetry c) k) s Q ↔
      Meets (alone answer t) (k (.ok (s.1.forRetry c)))
        (s.1, ⟨.fetchForRetry c, .ok (s.1.forRetry c)⟩ :: s.2) Q := by
  refine meets_alone _ _ rfl (if_pos rfl) ?_
  rintro (err | g) _ ha hn
  · simp [answered, Hub.declaredAnswer] at ha
  · simp only [Hub.next, Option.ite_none_right_eq_some] at hn
    rw [hn.1]

theorem alone_fetchFailed {c : Uuid} {k} :
    Meets (alone answer t) (.call (S := Sig V) (.fetchFailed c) k) s Q ↔
      ∀ rows : List FailedEventRow, rows.Perm ((s.1.failedRows c).map (·.toFailed)) →
        rows.Pairwise s.1.Oldest →
          Meets (alone answer t) (k (.ok rows)) (s.1, ⟨.fetchFailed c, .ok rows⟩ :: s.2) Q := by
  constructor
  · intro h rows hperm hsorted
    exact h.2 (.ok rows) (s.1, _) ⟨rfl, if_pos ⟨hperm, hsorted⟩, rfl⟩
  · intro h
    obtain ⟨rows, hperm, hsorted⟩ := exists_oldest s.1 ((s.1.failedRows c).map (·.toFailed))
    refine ⟨⟨.ok rows, s.1, rfl, if_pos ⟨hperm, hsorted⟩⟩, ?_⟩
    rintro (err | rows) ⟨w', h'⟩ ⟨ha, hn, rfl⟩
    · simp [answered, Hub.declaredAnswer] at ha
    · simp only [Hub.next, Option.ite_none_right_eq_some, Option.some.injEq] at hn
      obtain ⟨⟨hperm, hsorted⟩, rfl⟩ := hn
      exact h rows hperm hsorted

theorem alone_updateTx {id : Uuid} {u : EventUpdate} {row : EventRow} {k}
    (hrow : s.1.target id u = some row) (hfree : s.1.txs.FreeFor t id)
    (hok : s.1.checks id u → Meets (alone answer t) (k (.ok 1))
      ({ s.1 with txs := (s.1.txs.lock t id).push t (.update id u) },
        ⟨.updateTx id u, .ok 1⟩ :: s.2) Q)
    (herr : s.1.checks id u = false → ∀ err, Meets (alone answer t) (k (.error err))
      (s.1, ⟨.updateTx id u, .error err⟩ :: s.2) Q) :
    Meets (alone answer t) (.call (S := Sig V) (.updateTx id u) k) s Q := by
  refine ⟨?_, ?_⟩
  · by_cases hch : s.1.checks id u
    · refine ⟨.ok 1, { s.1 with txs := (s.1.txs.lock t id).push t (.update id u) }, hch, ?_⟩
      simp only [Hub.next, hrow]
      exact if_pos ⟨trivial, hfree⟩
    · exact ⟨.error "", s.1, by simpa [answered, Hub.declaredAnswer] using hch, rfl⟩
  · rintro (err | n) ⟨w', h'⟩ ⟨ha, hn, rfl⟩
    · cases hn
      exact herr (by simpa [answered, Hub.declaredAnswer] using ha) err
    · simp only [Hub.next, hrow, Option.ite_none_right_eq_some, Option.some.injEq] at hn
      obtain ⟨⟨rfl, -⟩, rfl⟩ := hn
      exact hok ha

theorem alone_update {id : Uuid} {u : EventUpdate} {row : EventRow} {k}
    (hrow : s.1.target id u = some row) (hfree : s.1.txs.holder id = none)
    (hok : s.1.checks id u → Meets (alone answer t) (k (.ok 1))
      (s.1.apply (.update id u), ⟨.update id u, .ok 1⟩ :: s.2) Q)
    (herr : s.1.checks id u = false → ∀ err, Meets (alone answer t) (k (.error err))
      (s.1, ⟨.update id u, .error err⟩ :: s.2) Q) :
    Meets (alone answer t) (.call (S := Sig V) (.update id u) k) s Q := by
  refine ⟨?_, ?_⟩
  · by_cases hch : s.1.checks id u
    · refine ⟨.ok 1, s.1.apply (.update id u), hch, ?_⟩
      simp only [Hub.next, hrow]
      exact if_pos ⟨trivial, hfree⟩
    · exact ⟨.error "", s.1, by simpa [answered, Hub.declaredAnswer] using hch, rfl⟩
  · rintro (err | n) ⟨w', h'⟩ ⟨ha, hn, rfl⟩
    · cases hn
      exact herr (by simpa [answered, Hub.declaredAnswer] using ha) err
    · simp only [Hub.next, hrow, Option.ite_none_right_eq_some, Option.some.injEq] at hn
      obtain ⟨⟨rfl, -⟩, rfl⟩ := hn
      exact hok ha

end

/-! ## The loop -/

/-- What a part of the loop leaves: the rows of `rows` are settled, or an error. -/
def Leaves (json : JsonCodec V) (answer : MapRequest V → Except MapRejected MapOutcome) (co : Uuid)
    (kind : ConnectorKind) (t : Tid) (w : Hub) (done rows : List EventRow)
    (res : Except IntegrationError Nat) (s : Hub × Past V) : Prop :=
  ((∀ r ∈ rows, fits (reply json answer co kind r)) →
    ∃ n, res = .ok n ∧ Swept json answer co kind t w (done ++ rows) s) ∧
  ((∃ r ∈ rows, fits (reply json answer co kind r) = false) → ∃ err, res = .error err)

theorem leaves_ok {done : List EventRow} {s : Hub × Past V} {r : EventRow} {n : Nat}
    (hf : fits (reply json answer co kind r))
    (hs : Swept json answer co kind t w (done ++ [r]) s) :
    Leaves json answer co kind t w done [r] (.ok n) s := by
  refine ⟨fun _ => ⟨n, rfl, hs⟩, ?_⟩
  rintro ⟨r', hr', hf'⟩
  rw [List.mem_singleton.mp hr', hf] at hf'
  cases hf'

theorem leaves_error {done : List EventRow} {s : Hub × Past V} {r : EventRow}
    {err : IntegrationError} (hf : fits (reply json answer co kind r) = false) :
    Leaves json answer co kind t w done [r] (.error err) s := by
  refine ⟨fun hall => ?_, fun _ => ⟨err, rfl⟩⟩
  rw [hall r List.mem_cons_self] at hf
  cases hf

theorem swept_commit {done : List EventRow} {s : Hub × Past V} {r : EventRow}
    (h : Swept json answer co kind t w done s) (hw : w.Sound) (hr : r ∈ w.failedRows cn)
    (hnew : r ∉ done) (record : OutboxRecord) {past : Past V}
    (hasked : requests past = r.toFailed.mapRequest json co kind :: requests s.2) :
    Swept json answer co kind t w (done ++ [r])
      (Hub.commit { s.1 with txs := ((s.1.txs.lock t r.id).push t
        (.update r.id (retryUpdate (reply json answer co kind r)))).push t (.stage record) } t,
      past) := by
  refine h.settle hw hr hnew (fun id => ?_) (fun id => ?_) ?_ hasked
  · simp [h.closed, Hub.apply_lookup]
  · rw [Hub.commit_txs]
    cases hh : (Txs.clear _ t).holder id with
    | none => rfl
    | some u =>
      obtain ⟨hu, hne⟩ := Txs.clear_holder_iff.mp hh
      simp only [Txs.push_holder, Txs.lock_holder, h.free] at hu
      split at hu
      · cases hu
        exact (hne rfl).elim
      · cases hu
  · simp

theorem retryRow_alone {done : List EventRow} {s : Hub × Past V} {r : EventRow}
    (h : Swept json answer co kind t w done s) (hw : w.Sound) (hr : r ∈ w.failedRows cn)
    (hnew : r ∉ done) :
    Meets (alone answer t) (retryRow json co cn kind r.toFailed).run s
      (Leaves json answer co kind t w done [r]) := by
  have hguard : (retryUpdate (reply json answer co kind r)).guard = .failed := by
    unfold retryUpdate
    split <;> rfl
  have htarget := h.target hw hr hnew hguard
  have hchecks := h.checks hw hr hnew hguard
  rw [retryUpdate_declared] at hchecks
  simp only [retryRow, map, ask, Prog.ask, meets_run_bind, meets_run_answer, alone_map, meets_ret]
  have hreply : answer (r.toFailed.mapRequest json co kind) = reply json answer co kind r := rfl
  rw [hreply]
  -- The three answers of the target: only a mapped event has a transaction.
  rcases hans : reply json answer co kind r with rej | mref | reason
  · rw [hans] at htarget hchecks
    simp only [update, sql, ask, Prog.ask, meets_run_bind, meets_run_orFail]
    refine alone_update htarget (h.free _) (fun hch => ?_) fun hch err => ?_
    · refine leaves_ok (hans ▸ hchecks ▸ hch) (h.settle hw hr hnew (fun id => ?_) ?_ ?_ rfl)
      · rw [hans]
        rfl
      · simpa using h.free
      · simpa using h.closed
    · exact leaves_error (hans ▸ hchecks ▸ hch)
  · rw [hans] at htarget hchecks
    simp only [begin, updateTx, stage, commit, publish, sql, ask, Prog.ask, meets_run_bind,
      meets_run_orFail, alone_begin, meets_ret, Except.mapError]
    refine alone_updateTx htarget (.inl (h.free _)) (fun hch => ?_) fun hch err => ?_
    · simp only [meets_ret, Except.mapError, if_true, meets_run_bind, meets_run_orFail,
        meets_run_answer, alone_stage, alone_commit, alone_publish, meets_run_pure]
      have hs := swept_commit h hw hr hnew
      rw [hans] at hs
      exact leaves_ok (hans ▸ hchecks ▸ hch) (hs _ rfl)
    · exact leaves_error (hans ▸ hchecks ▸ hch)
  · rw [hans] at htarget hchecks
    simp only [update, sql, ask, Prog.ask, meets_run_bind, meets_run_orFail]
    refine alone_update htarget (h.free _) (fun hch => ?_) fun hch err => ?_
    · refine leaves_ok (hans ▸ hchecks ▸ hch) (h.settle hw hr hnew (fun id => ?_) ?_ ?_ rfl)
      · rw [hans]
        rfl
      · simpa using h.free
      · simpa using h.closed
    · exact leaves_error (hans ▸ hchecks ▸ hch)

theorem retryRows_alone {done rows : List EventRow} {s : Hub × Past V} (mapped : Nat)
    (h : Swept json answer co kind t w done s) (hw : w.Sound)
    (hrows : ∀ r ∈ rows, r ∈ w.failedRows cn) (hnew : (done ++ rows).Nodup) :
    Meets (alone answer t) (retryRows json co cn kind (rows.map (·.toFailed)) mapped).run s
      (Leaves json answer co kind t w done rows) := by
  induction rows generalizing done s mapped with
  | nil =>
    refine ⟨fun _ => ⟨mapped, rfl, by simpa using h⟩, ?_⟩
    rintro ⟨r, hr, -⟩
    cases hr
  | cons r rows ih =>
    obtain ⟨hr, hrest⟩ := List.forall_mem_cons.mp hrows
    have hsplit : ((done ++ [r]) ++ rows).Nodup := by simpa using hnew
    have hnotin : r ∉ done := fun hin =>
      (List.nodup_append.mp hnew).2.2 r hin r List.mem_cons_self rfl
    rw [List.map_cons, retryRows, meets_run_bind]
    refine (retryRow_alone h hw hr hnotin).mono ?_
    rintro (err | m) s' ⟨hok, herr⟩
    · refine ⟨fun hall => ?_, fun _ => ⟨err, rfl⟩⟩
      obtain ⟨n, hn, -⟩ := hok (by simpa using hall r List.mem_cons_self)
      cases hn
    -- The loop goes on, so the answer for this row fits.
    · have hfit : fits (reply json answer co kind r) := by
        by_contra hf
        obtain ⟨err, he⟩ := herr ⟨r, List.mem_cons_self, by simpa using hf⟩
        cases he
      obtain ⟨n, -, hs'⟩ := hok (by simpa using hfit)
      refine (ih (mapped + m) hs' hrest hsplit).mono ?_
      rintro res s'' ⟨hok', herr'⟩
      refine ⟨fun hall => ?_, ?_⟩
      · obtain ⟨n', hn', hs''⟩ := hok' fun r' hr' => hall r' (List.mem_cons_of_mem _ hr')
        exact ⟨n', hn', by simpa using hs''⟩
      · rintro ⟨r', hr', hf⟩
        rcases List.mem_cons.mp hr' with rfl | hr'
        · rw [hfit] at hf
          cases hf
        · exact herr' ⟨r', hr', hf⟩

theorem failedRows_nodup {w : Hub} (hw : w.Sound) (cn : Uuid) : (w.failedRows cn).Nodup := by
  refine List.Nodup.filter _ (List.Nodup.map_on ?_ (List.Nodup.of_map Sigma.fst w.events.keys_nodup))
  rintro ⟨id, r⟩ hr ⟨id', r'⟩ hr' hrr
  obtain rfl : r = r' := hrr
  have hkey : ∀ {id}, ⟨id, r⟩ ∈ w.events.entries → r.id = id := fun hid =>
    hw.idle.keyed.id_eq _ _ (Hub.source?_eq_some.mpr ⟨r, AList.mem_lookup_iff.mpr hid, rfl⟩)
  rw [← hkey hr, ← hkey hr']

theorem swept_nil {past : Past V} (hw : w.Sound) (hp : requests past = []) :
    Swept json answer co kind t w [] (w, past) := by
  refine ⟨fun id => by simp, fun id => ?_, ?_, by simpa using hp⟩ <;> simp [hw.idle.txs]

/-- How a call alone ends. -/
def RetryEnds (json : JsonCodec V) (answer : MapRequest V → Except MapRejected MapOutcome)
    (kind : ConnectorKind) (w : Hub) : (c : Call V) → Res c → Hub × Past V → Prop
  | .receiveEvent _, _, _ => True
  | .retryFailed co cn, res, s =>
    ((∀ r ∈ w.failedRows cn, fits (reply json answer co kind r)) →
      Covered json answer co cn kind w s.1 s.2 res) ∧
    ((∃ r ∈ w.failedRows cn, fits (reply json answer co kind r) = false) → ∃ err, res = .error err)

theorem retryFailed_alone {conn : ConnectorRow} (hw : w.Sound)
    (hc : w.connectors.lookup cn = some conn) :
    Meets (alone answer t) (retryFailed json co cn).run (w, [])
      (RetryEnds json answer conn.kind w (.retryFailed co cn)) := by
  have hread : w.forRetry cn = some ⟨conn.kind⟩ := by rw [Hub.forRetry, hc, Option.map_some]
  simp only [retryFailed, fetchForRetry, fetchFailed, sql, ask, Prog.ask, meets_run_bind,
    meets_run_orFail, alone_fetchForRetry, meets_ret, Except.mapError, hread, alone_fetchFailed]
  rintro rows hperm -
  obtain ⟨order, rfl, horder⟩ : ∃ order : List EventRow, rows = order.map (·.toFailed) ∧
      order.Perm (w.failedRows cn) :=
    (congrFun (congrFun (List.eq_map_comp_perm _) rows) _).mpr hperm
  have hmem : ∀ {r}, r ∈ order ↔ r ∈ w.failedRows cn := horder.mem_iff
  refine (retryRows_alone 0 (swept_nil hw rfl) hw (fun r => hmem.mp)
    (horder.nodup_iff.mpr (failedRows_nodup hw cn))).mono ?_
  rintro res s ⟨hok, herr⟩
  refine ⟨fun hall => ?_, ?_⟩
  · obtain ⟨n, rfl, hs⟩ := hok fun r hr => hall r (hmem.mp hr)
    refine ⟨⟨n, rfl⟩, ?_, fun id => ?_⟩
    · rw [hs.asked]
      exact (List.reverse_perm _).trans (horder.map _)
    · rw [hs.rows]
      refine Option.map_congr fun r hr => ?_
      have hin : r ∈ order ↔ r.connectorId = cn ∧ r.status = .failed := by
        rw [hmem, Hub.failedRows, List.mem_filter, decide_eq_true_eq, Table.mem_rows]
        exact and_iff_right ⟨id, hr⟩
      simp only [List.nil_append, hin]
  · rintro ⟨r, hr, hf⟩
    exact herr ⟨r, hmem.mpr hr, hf⟩

end

/-! ## The theorem -/

/-- One `retry_failed` that runs alone on thread `t`. -/
def RetryAlone (answer : MapRequest V → Except MapRejected MapOutcome) (co cn : Uuid) (t : Tid)
    {json : JsonCodec V} (cfg : Config (system json)) : Label (system json) → Prop
  | .start u (.retryFailed co' cn') => u = t ∧ co' = co ∧ cn' = cn
  | .op u op ans => u = t ∧ answered answer cfg.world op ans
  | .finish u => u = t
  | .start _ (.receiveEvent _) | .crash _ | .env _ => False

theorem RetryAlone.only {answer : MapRequest V → Except MapRejected MapOutcome} {co cn : Uuid}
    {t : Tid} {json : JsonCodec V} {cfg : Config (system json)} {l : Label (system json)}
    (h : RetryAlone answer co cn t cfg l) : Only t (answered answer) cfg l := by
  unfold RetryAlone at h
  split at h
  · exact h.1
  · exact h
  · exact h
  all_goals exact h.elim

theorem RetryAlone.start {answer : MapRequest V → Except MapRejected MapOutcome} {co cn : Uuid}
    {t : Tid} {json : JsonCodec V} {cfg : Config (system json)} {u : Tid} {c : Call V}
    (h : RetryAlone answer co cn t cfg (.start u c)) : c = .retryFailed co cn := by
  cases c with
  | receiveEvent e => exact h.elim
  | retryFailed co' cn' =>
    obtain ⟨-, rfl, rfl⟩ := h
    rfl

/-- **One failed event never blocks the others on a retry**, exactly when every answer fits its
column. From every point of its run, the call can be brought to its end. -/
theorem retry_covers_iff {json : JsonCodec V} {answer : MapRequest V → Except MapRejected MapOutcome}
    {co cn : Uuid} {conn : ConnectorRow} {t : Tid} {w : Hub} {cfg : Config (system json)} (hw : w.Sound)
    (hconn : w.connectors.lookup cn = some conn)
    (h : Reach (system json) (· = w) (RetryAlone answer co cn t) cfg) :
    (∀ p, cfg.threads t = .running (.retryFailed co cn) p → ∃ cfg' res,
      Steps (system json) (Only t (answered answer)) cfg cfg' ∧
        cfg'.threads t = .done (.retryFailed co cn) res) ∧
    ∀ res, cfg.threads t = .done (.retryFailed co cn) res →
      (Covered json answer co cn conn.kind w cfg.world (cfg.events t) res ↔
        ∀ r ∈ w.failedRows cn, fits (reply json answer co conn.kind r)) := by
  have hcalls : ∀ c, c = .retryFailed co cn →
      Meets (.alone ((system json).next t) (answered answer)) ((system json).prog c) (w, [])
        (RetryEnds json answer conn.kind w c) := by
    rintro c rfl
    simp only [system, prog]
    exact retryFailed_alone hw hconn
  have hat : Whereabouts t (answered answer) (RetryEnds json answer conn.kind w) w cfg :=
    h.whereabouts hcalls (fun _ _ hok => hok.only) fun _ _ _ hok => hok.start
  unfold Whereabouts at hat
  refine ⟨fun p ht => ?_, fun res ht => ?_⟩
  · rw [ht] at hat
    exact hat.completes ht
  · rw [ht] at hat
    obtain ⟨w', hw', hall, hsome⟩ := hat
    have hevents : (Hub.events cfg.world) = w'.events := by rw [hw', system_leave]
    refine ⟨fun hcov r hr => ?_, fun hfit => ?_⟩
    · by_contra hf
      obtain ⟨err, rfl⟩ := hsome ⟨r, hr, by simpa using hf⟩
      obtain ⟨n, hn⟩ := hcov.returned
      cases hn
    · obtain ⟨hret, hask, hrows⟩ := hall hfit
      refine ⟨hret, hask, ?_⟩
      rw [hevents]
      exact hrows

/-! Two failed payments. The target maps the first to a reference type of 61 characters. -/

def backlogRow (id : Uuid) (businessKey : String) : EventRow :=
  ⟨id, 1, "payment.settled", "ext-1", businessKey, .failed, "1", none, none, some "no such account", 0⟩

def backlog : Hub where
  connectors := AList.singleton 1 ⟨.paymentGateway, .active, false⟩
  events := ((∅ : Table Uuid EventRow).insert 10 (backlogRow 10 "order-1:settled")).insert 20
    (backlogRow 20 "order-2:settled")
  outbox := []
  txs := .empty
  clock := 0

/-- The reference type of the first payment is `refType`. -/
def booksAs (refType : String) (req : MapRequest String) : Except MapRejected MapOutcome :=
  if req.idempotencyKey = "order-1:settled" then .ok (.mapped ⟨refType, 77⟩)
  else .ok (.ignored "no-op")

theorem backlog_lookup {id : Uuid} {r : EventRow} (h : backlog.events.lookup id = some r) :
    (id = 10 ∧ r = backlogRow 10 "order-1:settled") ∨
      (id = 20 ∧ r = backlogRow 20 "order-2:settled") := by
  simp only [backlog, Table.lookup_insert_ite, AList.lookup_empty] at h
  split at h
  · cases h
    exact .inr ⟨‹_›, rfl⟩
  · split at h <;> cases h
    exact .inl ⟨‹_›, rfl⟩

theorem backlog_sound : backlog.Sound := by
  refine ⟨⟨⟨?_, ?_⟩, rfl⟩, ?_⟩
  · intro id n hn
    obtain ⟨r, hr, rfl⟩ := Hub.source?_eq_some.mp hn
    rcases backlog_lookup hr with ⟨rfl, rfl⟩ | ⟨rfl, rfl⟩ <;> rfl
  · rintro id id' n n' hn hn' - hk
    obtain ⟨r, hr, rfl⟩ := Hub.source?_eq_some.mp hn
    obtain ⟨r', hr', rfl⟩ := Hub.source?_eq_some.mp hn'
    rcases backlog_lookup hr with ⟨rfl, rfl⟩ | ⟨rfl, rfl⟩ <;>
      rcases backlog_lookup hr' with ⟨rfl, rfl⟩ | ⟨rfl, rfl⟩ <;>
        first | rfl | simp [backlogRow, EventRow.source] at hk
  · intro id r hr
    rcases backlog_lookup hr with ⟨rfl, rfl⟩ | ⟨rfl, rfl⟩ <;> decide

instance {answer : MapRequest String → Except MapRejected MapOutcome} (w : Hub) (op : Op String)
    (ans : Ans op) : Decidable (answered answer w op ans) := by
  unfold answered
  split <;> infer_instance

instance {answer : MapRequest String → Except MapRejected MapOutcome} {co cn : Uuid} {t : Tid}
    (cfg : Config (system textJson)) (l : Label (system textJson)) :
    Decidable (RetryAlone answer co cn t cfg l) := by
  unfold RetryAlone
  split <;> infer_instance

/-- The call up to the target's answer to the first payment. -/
def listBacklog (refType : String) : List (Label (system textJson)) :=
  [.start 1 (.retryFailed 7 1), .op 1 (.fetchForRetry 1) (.ok (some ⟨.paymentGateway⟩)),
    .op 1 (.fetchFailed 1) (.ok [(backlogRow 10 "order-1:settled").toFailed,
      (backlogRow 20 "order-2:settled").toFailed]),
    .op 1 (.map ((backlogRow 10 "order-1:settled").toFailed.mapRequest textJson 7 .paymentGateway))
      (.ok (.mapped ⟨refType, 77⟩)),
    .op 1 .begin (.ok ())]

def retryBacklog : List (Label (system textJson)) :=
  listBacklog longType ++ [.op 1 (.updateTx 10 (.retryMarkMapped longType 77)) (.error tooLong), .finish 1]

theorem retryBacklog_runs : (replay (RetryAlone (booksAs longType) 7 1 1) (Config.init backlog)
    retryBacklog).isSome := by
  decide

def blocked : Config (system textJson) :=
  (replay (RetryAlone (booksAs longType) 7 1 1) (Config.init backlog) retryBacklog).get
    retryBacklog_runs

/-! The call ends at the first payment, and the second is not asked. -/

theorem first_blocks_second :
    backlog.Sound ∧ Reach (system textJson) (· = backlog) (RetryAlone (booksAs longType) 7 1 1) blocked ∧
    ∃ res, blocked.threads 1 = .done (.retryFailed 7 1) res ∧
      ¬Covered textJson (booksAs longType) 7 1 .paymentGateway backlog blocked.world (blocked.events 1) res ∧
      requests (blocked.events 1) =
        [(backlogRow 10 "order-1:settled").toFailed.mapRequest textJson 7 .paymentGateway] := by
  refine ⟨backlog_sound, .of_replay (by rfl) retryBacklog retryBacklog_runs, _, rfl, ?_, by rfl⟩
  intro hcov
  obtain ⟨n, hn⟩ := hcov.returned
  cases hn

/-- The same payments with a reference type that fits. -/
def bookBacklog : List (Label (system textJson)) :=
  listBacklog "payment" ++
    [.op 1 (.updateTx 10 (.retryMarkMapped "payment" 77)) (.ok 1),
      .op 1 (.stage (IntegrationEvent.record
        (.integrationEventMapped 10 7 1 "payment.settled" "ext-1" "payment" 77))) (.ok ()),
      .op 1 .commit (.ok ()),
      .op 1 (.publish (.integrationEventMapped 10 7 1 "payment.settled" "ext-1" "payment" 77)) (),
      .op 1 (.map ((backlogRow 20 "order-2:settled").toFailed.mapRequest textJson 7 .paymentGateway))
        (.ok (.ignored "no-op")),
      .op 1 (.update 20 (.retryMarkIgnored "no-op")) (.ok 1), .finish 1]

theorem bookBacklog_runs : (replay (RetryAlone (booksAs "payment") 7 1 1) (Config.init backlog)
    bookBacklog).isSome := by
  decide

def swept : Config (system textJson) :=
  (replay (RetryAlone (booksAs "payment") 7 1 1) (Config.init backlog) bookBacklog).get bookBacklog_runs

theorem retry_covers_iff_swept : ∃ res, swept.threads 1 = .done (.retryFailed 7 1) res ∧
    (Covered textJson (booksAs "payment") 7 1 .paymentGateway backlog swept.world (swept.events 1) res ↔
      ∀ r ∈ backlog.failedRows 1, fits (reply textJson (booksAs "payment") 7 .paymentGateway r)) := by
  have hr : Reach (system textJson) (· = backlog) (RetryAlone (booksAs "payment") 7 1 1) swept :=
    .of_replay (by rfl) bookBacklog bookBacklog_runs
  have hconn : backlog.connectors.lookup 1 = some ⟨.paymentGateway, .active, false⟩ := by decide
  exact ⟨_, rfl, (retry_covers_iff backlog_sound hconn hr).2 _ rfl⟩

end BackboneIntegrations.Intake
