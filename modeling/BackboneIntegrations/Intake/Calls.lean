import BackboneIntegrations.Intake.Steps

/-!
# What the calls do, in order

The script of a call: what it has done before each statement, and when it returns.
-/

open Interleave

namespace BackboneIntegrations.Intake

variable {V : Type}

/-- The operations of one call with their answers, newest first. -/
abbrev Past (V : Type) := List (Event (Sig V))

/-- The writes that the open transaction of a call holds after one more event. -/
def hold : Event (Sig V) → List Write → List Write
  | ⟨.updateTx id u, .ok n⟩, ws => if n = 0 then ws else ws ++ [.update id u]
  | ⟨.stage record, .ok ()⟩, ws => ws ++ [.stage record]
  | ⟨.commit, .ok ()⟩, _ | ⟨.rollback, .ok ()⟩, _ => []
  | _, ws => ws

/-- The writes of the open transaction, from the events of the call. -/
def pending : Past V → List Write
  | [] => []
  | ev :: h => hold ev (pending h)

/-! ## `receive_event` -/

/-- The update of the row and the event, for each answer of the target. -/
def settlement (e : InboundEvent V) (eventId : Uuid) :
    Except MapRejected MapOutcome → EventUpdate × IntegrationEvent
  | .ok (.mapped r) =>
    (.markMapped r.internalRefType r.internalRefId,
      .integrationEventMapped eventId e.companyId e.connectorId e.eventType e.externalId
        r.internalRefType r.internalRefId)
  | .ok (.ignored reason) =>
    (.markIgnored reason,
      .integrationEventIgnored eventId e.companyId e.connectorId e.externalId reason)
  | .error rej =>
    (.markFailed rej.message,
      .integrationEventFailed eventId e.companyId e.connectorId e.externalId rej.code)

def InboundEvent.newRow (e : InboundEvent V) (id : Uuid) : NewEventRow :=
  ⟨id, e.connectorId, e.eventType, e.externalId, e.businessKey, e.raw⟩

/-- One delivery that won its dedup slot: the connector, the id, and the target's answer. -/
structure Delivery where
  conn : ConnectorGateRow
  active : conn.status = .active
  newId : Uuid
  eventId : Uuid
  ans : Except MapRejected MapOutcome

namespace Delivery

variable (d : Delivery) (e : InboundEvent V)

/-- What `receive_event` returns for the delivery. -/
def outcome : ReceiveOutcome :=
  match d.ans with
  | .ok (.mapped r) => ⟨d.eventId, .mapped, some r.internalRefId, false⟩
  | .ok (.ignored _) => ⟨d.eventId, .ignored, none, false⟩
  | .error _ => ⟨d.eventId, .failed, none, false⟩

def update : EventUpdate := (settlement e d.eventId d.ans).1
def event : IntegrationEvent := (settlement e d.eventId d.ans).2

def claimed : Past V :=
  [⟨.claimEvent (e.newRow d.newId), .ok (some d.eventId)⟩, ⟨.newUuid, d.newId⟩,
    ⟨.fetchGate e.connectorId, .ok (some d.conn)⟩]
def mapped : Past V := ⟨.map (e.mapRequest d.conn.kind), d.ans⟩ :: d.claimed e
def opened : Past V := ⟨.begin, .ok ()⟩ :: d.mapped e
def updated (n : Nat) : Past V := ⟨.updateTx d.eventId (d.update e), .ok n⟩ :: d.opened e
def staged (n : Nat) : Past V := ⟨.stage (d.event e).record, .ok ()⟩ :: d.updated e n
def committed (n : Nat) : Past V := ⟨.commit, .ok ()⟩ :: d.staged e n

end Delivery

def receiveMust (e : InboundEvent V) (h : Past V) : Op V → Prop
  | .fetchGate c => c = e.connectorId ∧ h = []
  | .newUuid =>
    ∃ conn, conn.status = .active ∧ h = [⟨.fetchGate e.connectorId, .ok (some conn)⟩]
  | .claimEvent n =>
    n = e.newRow n.id ∧ ∃ conn, conn.status = .active ∧
      h = [⟨.newUuid, n.id⟩, ⟨.fetchGate e.connectorId, .ok (some conn)⟩]
  | .fetchByBusinessKey c k =>
    c = e.connectorId ∧ k = e.businessKey ∧
      ∃ id h', h = ⟨.claimEvent (e.newRow id), .ok none⟩ :: h'
  | .map req => ∃ d : Delivery, req = e.mapRequest d.conn.kind ∧ h = d.claimed e
  | .begin => ∃ d : Delivery, h = d.mapped e
  | .updateTx id u => ∃ d : Delivery, id = d.eventId ∧ u = d.update e ∧ h = d.opened e
  | .stage record => ∃ (d : Delivery) (n : Nat), record = (d.event e).record ∧ h = d.updated e n
  | .commit => ∃ (d : Delivery) (n : Nat), h = d.staged e n
  | .publish ev => ∃ (d : Delivery) (n : Nat), ev = d.event e ∧ h = d.committed e n
  | .fetchForRetry _ | .fetchFailed _ | .rollback | .update .. => False

/-- What `receive_event` has done when it returns `Ok`. -/
def receiveLeave (e : InboundEvent V) (h : Past V) : Except IntegrationError ReceiveOutcome → Prop
  | .ok out =>
    if out.duplicate then
      ∃ row id conn, out.eventId = row.id ∧
        h = [⟨.fetchByBusinessKey e.connectorId e.businessKey, .ok row⟩,
          ⟨.claimEvent (e.newRow id), .ok none⟩, ⟨.newUuid, id⟩,
          ⟨.fetchGate e.connectorId, .ok (some conn)⟩]
    else ∃ (d : Delivery) (n : Nat) (ev : IntegrationEvent),
      out = d.outcome ∧ h = ⟨.publish ev, ()⟩ :: d.committed e n
  | .error _ => True

@[simp] theorem Delivery.outcome_eventId (d : Delivery) : d.outcome.eventId = d.eventId := by
  unfold outcome
  split <;> rfl

section

variable {e : InboundEvent V} {d : Delivery} {h : Past V}

theorem settle_meets {Q : Except IntegrationError Unit → Past V → Prop}
    (hok : ∀ n ev, Q (.ok ()) (⟨.publish ev, ()⟩ :: d.committed e n))
    (herr : ∀ err h', Q (.error err) h') :
    Meets (.ofPast (receiveMust e)) (settle d.eventId (d.update e) (d.event e)).run (d.mapped e) Q := by
  simp only [settle, begin, updateTx, stage, commit, publish, sql, ask, Prog.ask, meets_run_bind,
    meets_run_orFail, meets_run_answer, meets_call, meets_ret, ofPast_must, ofPast_may, forall_eq]
  refine ⟨⟨d, rfl⟩, ?_⟩
  rintro (err | ⟨⟩)
  · exact herr _ _
  refine ⟨⟨d, rfl, rfl, rfl⟩, ?_⟩
  rintro (err | n)
  · exact herr _ _
  refine ⟨⟨d, n, rfl, rfl⟩, ?_⟩
  rintro (err | ⟨⟩)
  · exact herr _ _
  refine ⟨⟨d, n, rfl⟩, ?_⟩
  rintro (err | ⟨⟩)
  · exact herr _ _
  exact ⟨⟨d, n, rfl, rfl⟩, fun _ => hok n _⟩

theorem deliver_meets {e : InboundEvent V} {conn : ConnectorGateRow} (hc : conn.status = .active)
    (newId eventId : Uuid) (h : Past V)
    (hh : ∀ ans, h = Delivery.claimed ⟨conn, hc, newId, eventId, ans⟩ e) :
    Meets (.ofPast (receiveMust e)) (deliver e conn.kind eventId).run h
      fun r h => receiveLeave e h r := by
  simp only [deliver, map, ask, Prog.ask, meets_run_bind, meets_run_answer, meets_call, meets_ret,
    ofPast_must, ofPast_may, forall_eq]
  refine ⟨⟨⟨conn, hc, newId, eventId, .error ⟨"", ""⟩⟩, rfl, hh _⟩, fun ans => ?_⟩
  let d : Delivery := ⟨conn, hc, newId, eventId, ans⟩
  rw [hh ans]
  rcases hans : ans with rej | mref | reason
  all_goals
    subst hans
    rw [meets_run_bind]
    refine settle_meets (d := d) (fun n ev => ?_) fun _ _ => trivial
    exact ⟨d, n, ev, rfl, rfl⟩

theorem receiveEvent_meets (e : InboundEvent V) :
    Meets (.ofPast (receiveMust e)) (receiveEvent e).run [] fun r h => receiveLeave e h r := by
  simp only [receiveEvent, fetchGate, claimEvent, newUuid, fetchByBusinessKey, sql, ask, Prog.ask,
    meets_run_bind, meets_run_ite, meets_run_orFail, meets_run_throw, meets_call,
    meets_ret, ofPast_must, ofPast_may, forall_eq]
  refine ⟨fun _ => trivial, fun _ => ⟨fun _ => trivial, fun _ => ⟨⟨rfl, rfl⟩, ?_⟩⟩⟩
  rintro (err | _ | conn)
  · trivial
  · trivial
  simp only [Except.mapError, meets_run_ite, meets_run_bind, meets_run_throw, meets_run_answer,
    meets_run_orFail, meets_call, meets_ret, ofPast_must, ofPast_may, forall_eq, not_not]
  refine ⟨fun _ => trivial, fun hc => ⟨⟨conn, hc, rfl⟩, fun id => ⟨⟨rfl, conn, hc, rfl⟩, ?_⟩⟩⟩
  rintro (err | _ | eventId)
  · trivial
  · simp only [meets_run_bind, meets_run_orFail, meets_call, meets_ret, ofPast_must, ofPast_may,
      forall_eq]
    refine ⟨⟨rfl, rfl, id, _, rfl⟩, ?_⟩
    rintro (err | row)
    · trivial
    · exact ⟨row, id, conn, rfl, rfl⟩
  · exact deliver_meets hc id eventId _ fun _ => rfl

end

/-! ## `retry_failed` -/

def isCommit : Event (Sig V) → Bool
  | ⟨.commit, .ok ()⟩ => true
  | _ => false

/-- One pass of the loop: a failed row that this call listed, and what came before. -/
structure Attempt (V : Type) (connectorId : Uuid) where
  conn : ConnectorRetryRow
  row : FailedEventRow
  before : Past V
  read : ⟨.fetchForRetry connectorId, .ok (some conn)⟩ ∈ before
  listed : ∃ rows, row ∈ rows ∧ ⟨.fetchFailed connectorId, .ok rows⟩ ∈ before
  closed : pending before = []

section

variable (json : JsonCodec V) (companyId : Uuid) {connectorId : Uuid} (a : Attempt V connectorId)

namespace Attempt

def request : MapRequest V := a.row.mapRequest json companyId a.conn.kind
def update (r : MappedRef) : EventUpdate := .retryMarkMapped r.internalRefType r.internalRefId
def event (r : MappedRef) : IntegrationEvent :=
  .integrationEventMapped a.row.id companyId connectorId a.row.eventType a.row.externalId
    r.internalRefType r.internalRefId

def mapped (ans : Except MapRejected MapOutcome) : Past V :=
  ⟨.map (a.request json companyId), ans⟩ :: a.before
def opened (r : MappedRef) : Past V := ⟨.begin, .ok ()⟩ :: a.mapped json companyId (.ok (.mapped r))
def updated (r : MappedRef) (n : Nat) : Past V :=
  ⟨.updateTx a.row.id (update r), .ok n⟩ :: a.opened json companyId r
def staged (r : MappedRef) : Past V :=
  ⟨.stage (a.event companyId r).record, .ok ()⟩ :: a.updated json companyId r 1
def committed (r : MappedRef) : Past V := ⟨.commit, .ok ()⟩ :: a.staged json companyId r

end Attempt

def retryMust (connectorId : Uuid) (h : Past V) : Op V → Prop
  | .fetchForRetry c => c = connectorId ∧ h = []
  | .fetchFailed c =>
    c = connectorId ∧ ∃ conn, h = [⟨.fetchForRetry connectorId, .ok (some conn)⟩]
  | .map req => ∃ a : Attempt V connectorId, req = a.request json companyId ∧ h = a.before
  | .begin => ∃ (a : Attempt V connectorId) (r : MappedRef),
      h = a.mapped json companyId (.ok (.mapped r))
  | .updateTx id u => ∃ (a : Attempt V connectorId) (r : MappedRef),
      id = a.row.id ∧ u = Attempt.update r ∧ h = a.opened json companyId r
  | .stage record => ∃ (a : Attempt V connectorId) (r : MappedRef),
      record = (a.event companyId r).record ∧ h = a.updated json companyId r 1
  | .commit => ∃ (a : Attempt V connectorId) (r : MappedRef), h = a.staged json companyId r
  | .rollback => ∃ (a : Attempt V connectorId) (r : MappedRef) (n : Nat), n ≠ 1 ∧
      h = a.updated json companyId r n
  | .update id u => ∃ a : Attempt V connectorId, id = a.row.id ∧
      ((∃ reason, u = .retryMarkIgnored reason ∧
          h = a.mapped json companyId (.ok (.ignored reason))) ∨
        ∃ rej, u = .setErrorDetail rej.message ∧ h = a.mapped json companyId (.error rej))
  | .publish ev => ∃ (a : Attempt V connectorId) (r : MappedRef),
      ev = a.event companyId r ∧ h = a.committed json companyId r
  | .fetchGate _ | .newUuid | .claimEvent _ | .fetchByBusinessKey .. => False

/-- `retry_failed` returns how often it has committed. -/
def retryLeave (r : Except IntegrationError Nat) (h : Past V) : Prop :=
  ∀ n, r = .ok n → h.countP isCommit = n

theorem retryRow_meets :
    Meets (.ofPast (retryMust json companyId connectorId))
      (retryRow json companyId connectorId a.conn.kind a.row).run a.before
      fun r h => ∀ m, r = .ok m → a.before <:+ h ∧ pending h = [] ∧
        h.countP isCommit = a.before.countP isCommit + m := by
  simp only [retryRow, map, ask, Prog.ask, meets_run_bind, meets_run_answer, meets_call, meets_ret,
    ofPast_must, ofPast_may, forall_eq]
  refine ⟨⟨a, rfl, rfl⟩, ?_⟩
  rintro (rej | mref | reason)
  · simp only [update, sql, ask, Prog.ask, meets_run_bind, meets_run_orFail, meets_call, meets_ret,
      ofPast_must, ofPast_may, forall_eq]
    refine ⟨⟨a, rfl, .inr ⟨rej, rfl, rfl⟩⟩, ?_⟩
    rintro (err | n)
    · rintro _ ⟨⟩
    · rintro _ ⟨⟩
      exact ⟨(List.suffix_cons ..).trans (List.suffix_cons ..), a.closed, rfl⟩
  · simp only [begin, updateTx, stage, commit, publish, rollback, sql, ask, Prog.ask,
      meets_run_bind, meets_run_orFail, meets_call, meets_ret, ofPast_must, ofPast_may, forall_eq]
    refine ⟨⟨a, mref, rfl⟩, ?_⟩
    rintro (err | ⟨⟩)
    · rintro _ ⟨⟩
    refine ⟨⟨a, mref, rfl, rfl, rfl⟩, ?_⟩
    rintro (err | n)
    · rintro _ ⟨⟩
    simp only [Except.mapError, meets_run_ite, meets_run_bind, meets_run_orFail, meets_run_answer,
      meets_call, meets_ret, ofPast_must, ofPast_may, forall_eq]
    -- With one row the call stages and commits. With another count somebody else has settled the
    -- row, and it rolls back.
    refine ⟨?_, fun hn => ⟨⟨a, mref, n, hn, rfl⟩, ?_⟩⟩
    · rintro rfl
      refine ⟨⟨a, mref, rfl, rfl⟩, ?_⟩
      rintro (err | ⟨⟩)
      · rintro _ ⟨⟩
      refine ⟨⟨a, mref, rfl⟩, ?_⟩
      rintro (err | ⟨⟩)
      · rintro _ ⟨⟩
      refine ⟨⟨a, mref, rfl, rfl⟩, ?_⟩
      rintro _ _ ⟨⟩
      exact ⟨⟨[_, _, _, _, _, _], rfl⟩, rfl, by simp [List.countP_cons, isCommit]⟩
    · rintro (err | ⟨⟩)
      · rintro _ ⟨⟩
      · rintro _ ⟨⟩
        exact ⟨⟨[_, _, _, _], rfl⟩, rfl, rfl⟩
  · simp only [update, sql, ask, Prog.ask, meets_run_bind, meets_run_orFail, meets_call, meets_ret,
      ofPast_must, ofPast_may, forall_eq]
    refine ⟨⟨a, rfl, .inl ⟨reason, rfl, rfl⟩⟩, ?_⟩
    rintro (err | n)
    · rintro _ ⟨⟩
    · rintro _ ⟨⟩
      exact ⟨(List.suffix_cons ..).trans (List.suffix_cons ..), a.closed, rfl⟩

theorem retryRows_meets (conn : ConnectorRetryRow) (all : List FailedEventRow) (mapped : Nat)
    {h : Past V} {rows : List FailedEventRow} (hrows : ∀ row ∈ rows, row ∈ all)
    (hread : ⟨.fetchForRetry connectorId, .ok (some conn)⟩ ∈ h)
    (hall : ⟨.fetchFailed connectorId, .ok all⟩ ∈ h) (hclosed : pending h = [])
    (hcount : h.countP isCommit = mapped) :
    Meets (.ofPast (retryMust json companyId connectorId))
      (retryRows json companyId connectorId conn.kind rows mapped).run h retryLeave := by
  induction rows generalizing h mapped with
  | nil =>
    rintro _ ⟨⟩
    exact hcount
  | cons row rows ih =>
    obtain ⟨hrow, hrest⟩ := List.forall_mem_cons.mp hrows
    rw [retryRows, meets_run_bind]
    let a : Attempt V connectorId := ⟨conn, row, h, hread, ⟨all, hrow, hall⟩, hclosed⟩
    refine (retryRow_meets json companyId a).mono ?_
    rintro (err | m) h' hpost
    · exact fun _ hr => nomatch hr
    · obtain ⟨hsuf, hclosed', hcount'⟩ := hpost m rfl
      rw [show a.before = h from rfl, hcount] at hcount'
      exact ih _ hrest (hsuf.subset hread) (hsuf.subset hall) hclosed' hcount'

theorem retryFailed_meets (connectorId : Uuid) :
    Meets (.ofPast (retryMust json companyId connectorId))
      (retryFailed json companyId connectorId).run [] retryLeave := by
  simp only [retryFailed, fetchForRetry, fetchFailed, sql, ask, Prog.ask, meets_run_bind,
    meets_run_orFail, meets_call, meets_ret, ofPast_must, ofPast_may, forall_eq]
  refine ⟨⟨rfl, rfl⟩, ?_⟩
  rintro (err | _ | conn)
  · rintro _ ⟨⟩
  · rintro _ ⟨⟩
  simp only [Except.mapError, meets_run_bind, meets_run_orFail, meets_call, meets_ret, ofPast_must,
    ofPast_may, forall_eq]
  refine ⟨⟨rfl, conn, rfl⟩, ?_⟩
  rintro (err | rows)
  · rintro _ ⟨⟩
  · exact retryRows_meets json companyId conn rows 0 (fun _ h => h) (by simp) (by simp) rfl rfl

end

/-! ## The script -/

def must (json : JsonCodec V) : Call V → Past V → Op V → Prop
  | .receiveEvent e => receiveMust e
  | .retryFailed companyId connectorId => retryMust json companyId connectorId

def leave : (c : Call V) → Res c → Past V → Prop
  | .receiveEvent e, r, h => receiveLeave e h r
  | .retryFailed .., r, h => retryLeave r h

def script (json : JsonCodec V) : Script (system json) where
  must := must json
  leave := leave

theorem script_holds (json : JsonCodec V) : (script json).Holds := by
  intro c
  cases c with
  | receiveEvent e =>
    simp only [system, prog]
    exact receiveEvent_meets e
  | retryFailed companyId connectorId =>
    simp only [system, prog]
    exact retryFailed_meets json companyId connectorId

/-! ## Schedules of one call -/

/-- The steps of thread `t` that give the past. -/
def Past.labels {json : JsonCodec V} (h : Past V) (t : Tid) : List (Label (system json)) :=
  h.reverse.map fun ev => .op t ev.op ev.ans

/-- A delivery that wins its claim, from start to end. -/
def Delivery.labels {json : JsonCodec V} (d : Delivery) (e : InboundEvent V) (t : Tid) :
    List (Label (system json)) :=
  .start t (.receiveEvent e) ::
    Past.labels (⟨.publish (d.event e), ()⟩ :: d.committed e 1) t ++ [.finish t]

end BackboneIntegrations.Intake
