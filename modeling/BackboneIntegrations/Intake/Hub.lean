import BackboneIntegrations.Intake.Service

/-!
# The hub: the tables below the intake

What each statement does to the tables, as Postgres does it under READ COMMITTED. Any
statement can also fail, and then it changes nothing.
-/

open Interleave

namespace BackboneIntegrations.Intake

variable {V : Type}

/-- A write that an open transaction keeps until its commit. -/
inductive Write where
  | update (eventId : Uuid) (u : EventUpdate)
  | stage (record : OutboxRecord)
  deriving DecidableEq

/-- The row that `claim_event` inserts: `status` is the literal of its `INSERT`. -/
def NewEventRow.toRow (e : NewEventRow) (clock : Time) : EventRow where
  id := e.id
  connectorId := e.connectorId
  eventType := e.eventType
  externalId := e.externalId
  businessKey := e.businessKey
  status := .received
  payload := e.raw
  mappedRefType := none
  mappedRefId := none
  errorDetail := none
  createdAt := clock

/-- The columns that `fetch_failed` selects. -/
def EventRow.toFailed (r : EventRow) : FailedEventRow :=
  ⟨r.id, r.eventType, r.externalId, r.businessKey, r.errorDetail, r.payload⟩

structure Hub where
  connectors : Table Uuid ConnectorRow
  events : Table Uuid EventRow
  outbox : List OutboxRecord
  txs : Txs Uuid Write
  clock : Time

namespace Hub

def gate (w : Hub) (connectorId : Uuid) : Option ConnectorGateRow :=
  match w.connectors.lookup connectorId with
  | some c => if c.deleted then none else some ⟨c.kind, c.status⟩
  | none => none

def forRetry (w : Hub) (connectorId : Uuid) : Option ConnectorRetryRow :=
  (w.connectors.lookup connectorId).map fun c => ⟨c.kind⟩

/-- The unique index on `(connector_id, business_key)`. -/
def byKey (w : Hub) (connectorId : Uuid) (businessKey : String) : Option EventRow :=
  (Table.rows w.events).find? fun r => r.connectorId = connectorId ∧ r.businessKey = businessKey

def failedRows (w : Hub) (connectorId : Uuid) : List EventRow :=
  (Table.rows w.events).filter fun r => r.connectorId = connectorId ∧ r.status = .failed

def insertEvent (w : Hub) (e : NewEventRow) : Hub :=
  { w with events := w.events.insert e.id (e.toRow w.clock) }

def apply (w : Hub) : Write → Hub
  | .update id u =>
    match w.events.lookup id with
    | some row => { w with events := w.events.insert id (u.set row) }
    | none => w
  | .stage record => { w with outbox := w.outbox ++ [record] }

/-- The row that an `UPDATE` matches now. -/
def target (w : Hub) (eventId : Uuid) (u : EventUpdate) : Option EventRow :=
  (w.events.lookup eventId).filter fun r => r.status = u.guard

def commit (w : Hub) (t : Tid) : Hub :=
  let w' := (w.txs.writes t).foldl apply w
  { w' with txs := w.txs.clear t }

end Hub

/-- `ORDER BY created_at`, on the rows that the answer names. -/
def Hub.Oldest (w : Hub) (a b : FailedEventRow) : Prop :=
  ∀ ra ∈ w.events.lookup a.id, ∀ rb ∈ w.events.lookup b.id, ra.createdAt ≤ rb.createdAt

instance (w : Hub) (a b : FailedEventRow) : Decidable (w.Oldest a b) :=
  inferInstanceAs (Decidable (∀ ra ∈ w.events.lookup a.id, ∀ rb ∈ w.events.lookup b.id,
    ra.createdAt ≤ rb.createdAt))

/-- The world after thread `t` got the answer, or `none` where the answer cannot be. -/
def Hub.next (t : Tid) : (op : Op V) → Ans op → Hub → Option Hub
  | .newUuid, _, w => some w
  | .fetchGate c, .ok g, w => if g = w.gate c then some w else none
  | .fetchForRetry c, .ok g, w => if g = w.forRetry c then some w else none
  | .claimEvent e, .ok none, w => if (w.byKey e.connectorId e.businessKey).isSome then some w else none
  | .claimEvent e, .ok (some id), w =>
    if id = e.id ∧ w.byKey e.connectorId e.businessKey = none ∧ w.events.lookup e.id = none then
      some (w.insertEvent e)
    else none
  | .fetchByBusinessKey c k, .ok row, w =>
    if (w.byKey c k).map (fun r => ⟨r.id, r.status, r.mappedRefId⟩) = some row then some w else none
  | .fetchFailed c, .ok rows, w =>
    if rows.Perm ((w.failedRows c).map (·.toFailed)) ∧ rows.Pairwise w.Oldest then some w else none
  | .map _, _, w => some w
  | .begin, .ok (), w => some w
  | .updateTx id u, .ok n, w =>
    match w.target id u with
    | some _ =>
      if n = 1 ∧ w.txs.FreeFor t id then
        some { w with txs := (w.txs.lock t id).push t (.update id u) }
      else none
    | none => if n = 0 then some w else none
  | .stage record, .ok (), w => some { w with txs := w.txs.push t (.stage record) }
  | .commit, .ok (), w => some (w.commit t)
  | .rollback, .ok (), w => some { w with txs := w.txs.clear t }
  | .update id u, .ok n, w =>
    match w.target id u with
    | some _ => if n = 1 ∧ w.txs.holder id = none then some (w.apply (.update id u)) else none
    | none => if n = 0 then some w else none
  | .publish _, _, w => some w
  | .fetchGate _, .error _, w | .fetchForRetry _, .error _, w | .claimEvent _, .error _, w
  | .fetchByBusinessKey .., .error _, w | .fetchFailed _, .error _, w | .begin, .error _, w
  | .updateTx .., .error _, w | .stage _, .error _, w | .commit, .error _, w
  | .rollback, .error _, w | .update .., .error _, w => some w

/-! ## The system -/

inductive Call (V : Type) where
  | receiveEvent (e : InboundEvent V)
  | retryFailed (companyId connectorId : Uuid)

/-- What happens around the calls: time passes, and an operator changes a connector. -/
inductive Env where
  | tick (clock : Time)
  | setConnector (connectorId : Uuid) (row : ConnectorRow)

def Hub.env : Env → Hub → Option Hub
  | .tick clock, w => if w.clock ≤ clock then some { w with clock } else none
  | .setConnector id row, w => some { w with connectors := w.connectors.insert id row }

abbrev Res : Call V → Type
  | .receiveEvent _ => Except IntegrationError ReceiveOutcome
  | .retryFailed .. => Except IntegrationError Nat

def prog (json : JsonCodec V) : (c : Call V) → Prog (Sig V) (Res c)
  | .receiveEvent e => (receiveEvent e).run
  | .retryFailed companyId connectorId => (retryFailed json companyId connectorId).run

def system (json : JsonCodec V) : System (Sig V) Hub (Call V) Res Env where
  prog := prog json
  next := Hub.next
  leave t w := { w with txs := w.txs.clear t }
  env := Hub.env

@[simp] theorem system_leave (json : JsonCodec V) (t : Tid) (w : Hub) :
    (system json).leave t w = { w with txs := w.txs.clear t } := rfl

/-- A hub with no events yet. -/
def Hub.Fresh (w : Hub) : Prop :=
  w.events = ∅ ∧ w.outbox = [] ∧ w.txs = .empty

/-- Two active payment connectors, and no events yet. -/
def twoConnectors : Hub where
  connectors := (AList.singleton 1 ⟨.paymentGateway, .active, false⟩).insert 2
    ⟨.paymentGateway, .active, false⟩
  events := ∅
  outbox := []
  txs := .empty
  clock := 0

theorem twoConnectors_fresh : twoConnectors.Fresh := ⟨rfl, rfl, rfl⟩

namespace Call

/-- The connector that a call is about. -/
def connectorId : Call V → Uuid
  | receiveEvent e => e.connectorId
  | retryFailed _ c => c

def companyId : Call V → Uuid
  | receiveEvent e => e.companyId
  | retryFailed co _ => co

end Call

end BackboneIntegrations.Intake
