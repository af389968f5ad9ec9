import BackboneIntegrations.Basic
import BackboneIntegrations.Text
import BackboneIntegrations.Interleave.Txs

/-!
# The intake of provider events

`receive_event` and `retry_failed`, with the statements they run and the ports they call.
`V` is the JSON value type: the module hands payloads on and never looks inside.
-/

open Interleave

namespace BackboneIntegrations.Intake

/-! ## Rows -/

inductive ConnectorKind where
  | paymentGateway | marketplace | bankFeed | courier
  deriving DecidableEq, Repr

inductive ConnectorStatus where
  | active | inactive
  deriving DecidableEq, Repr

inductive IntegrationStatus where
  | received | mapped | ignored | failed
  deriving DecidableEq, Repr

structure ConnectorRow where
  kind : ConnectorKind
  status : ConnectorStatus
  deleted : Bool
  deriving DecidableEq, Repr

structure ConnectorGateRow where
  kind : ConnectorKind
  status : ConnectorStatus
  deriving DecidableEq, Repr

structure ConnectorRetryRow where
  kind : ConnectorKind
  deriving DecidableEq, Repr

/-- One row of `integration_events`. `payload` is the raw text of the notification. -/
structure EventRow where
  id : Uuid
  connectorId : Uuid
  eventType : String
  externalId : String
  businessKey : String
  status : IntegrationStatus
  payload : String
  mappedRefType : Option String
  mappedRefId : Option Uuid
  errorDetail : Option String
  createdAt : Time
  deriving DecidableEq, Repr

structure NewEventRow where
  id : Uuid
  connectorId : Uuid
  eventType : String
  externalId : String
  businessKey : String
  raw : String
  deriving DecidableEq, Repr

structure EventOutcomeRow where
  id : Uuid
  status : IntegrationStatus
  mappedRefId : Option Uuid
  deriving DecidableEq, Repr

structure FailedEventRow where
  id : Uuid
  eventType : String
  externalId : String
  businessKey : String
  errorDetail : Option String
  payload : String
  deriving DecidableEq, Repr

/-! ## The target port and the events -/

structure MapRequest (V : Type) where
  companyId : Uuid
  connectorKind : ConnectorKind
  eventType : String
  externalId : String
  idempotencyKey : String
  payload : V
  deriving DecidableEq, Repr

structure MappedRef where
  internalRefType : String
  internalRefId : Uuid
  deriving DecidableEq, Repr

inductive MapOutcome where
  | mapped (ref : MappedRef)
  | ignored (reason : String)
  deriving DecidableEq, Repr

structure MapRejected where
  code : String
  message : String
  deriving DecidableEq, Repr

inductive IntegrationEvent where
  | integrationEventMapped (eventId companyId connectorId : Uuid)
      (eventType externalId internalRefType : String) (internalRefId : Uuid)
  | integrationEventFailed (eventId companyId connectorId : Uuid) (externalId reason : String)
  | integrationEventIgnored (eventId companyId connectorId : Uuid) (externalId reason : String)
  deriving DecidableEq, Repr

/-- A row of the outbox. The payload column is the JSON of the event. -/
structure OutboxRecord where
  eventType : String
  aggregateType : String
  aggregateId : Uuid
  companyId : Uuid
  payload : IntegrationEvent
  deriving DecidableEq, Repr

/-! ## The guarded updates of the event repository -/

/-- The six `UPDATE`s. Each names the status it is guarded on in its `WHERE`. -/
inductive EventUpdate where
  | markMapped (mappedRefType : String) (mappedRefId : Uuid)
  | markIgnored (reason : String)
  | markFailed (errorDetail : String)
  | retryMarkMapped (mappedRefType : String) (mappedRefId : Uuid)
  | retryMarkIgnored (reason : String)
  | setErrorDetail (errorDetail : String)
  deriving DecidableEq, Repr

namespace EventUpdate

def guard : EventUpdate → IntegrationStatus
  | markMapped .. | markIgnored _ | markFailed _ => .received
  | retryMarkMapped .. | retryMarkIgnored _ | setErrorDetail _ => .failed

def set : EventUpdate → EventRow → EventRow
  | markMapped t r, row => { row with status := .mapped, mappedRefType := t, mappedRefId := r }
  | markIgnored reason, row => { row with status := .ignored, errorDetail := reason }
  | markFailed d, row => { row with status := .failed, errorDetail := d }
  | retryMarkMapped t r, row =>
    { row with status := .mapped, mappedRefType := t, mappedRefId := r, errorDetail := none }
  | retryMarkIgnored reason, row => { row with status := .ignored, errorDetail := reason }
  | setErrorDetail d, row => { row with errorDetail := d }

end EventUpdate

/-! ## Operations -/

/-- `updateTx` runs inside the open transaction, `update` commits by itself. -/
inductive Op (V : Type) where
  | newUuid
  | fetchGate (connectorId : Uuid)
  | fetchForRetry (connectorId : Uuid)
  | claimEvent (e : NewEventRow)
  | fetchByBusinessKey (connectorId : Uuid) (businessKey : String)
  | fetchFailed (connectorId : Uuid)
  | map (req : MapRequest V)
  | begin
  | updateTx (eventId : Uuid) (u : EventUpdate)
  | stage (record : OutboxRecord)
  | commit
  | rollback
  | update (eventId : Uuid) (u : EventUpdate)
  | publish (event : IntegrationEvent)
  deriving DecidableEq

/-- An `UPDATE` answers with its number of rows. -/
abbrev Ans {V : Type} : Op V → Type
  | .newUuid => Uuid
  | .fetchGate _ => Except DbError (Option ConnectorGateRow)
  | .fetchForRetry _ => Except DbError (Option ConnectorRetryRow)
  | .claimEvent _ => Except DbError (Option Uuid)
  | .fetchByBusinessKey .. => Except DbError EventOutcomeRow
  | .fetchFailed _ => Except DbError (List FailedEventRow)
  | .map _ => Except MapRejected MapOutcome
  | .begin => Except DbError Unit
  | .updateTx .. => Except DbError Nat
  | .stage _ => Except DbError Unit
  | .commit => Except DbError Unit
  | .rollback => Except DbError Unit
  | .update .. => Except DbError Nat
  | .publish _ => Unit

abbrev Sig (V : Type) : Signature := ⟨Op V, Ans⟩

inductive IntegrationError where
  | db (e : DbError)
  | notFound (what : String)
  | invalidState (why : String)
  | invalid (why : String)
  deriving DecidableEq, Repr

abbrev Flow (V α : Type) := ExceptT IntegrationError (Prog (Sig V)) α

variable {V : Type}

abbrev ask (op : Op V) : Prog (Sig V) (Ans op) := Prog.ask (S := Sig V) op

/-- A statement, with `?` on its database error. -/
def sql {α : Type} (p : Prog (Sig V) (Except DbError α)) : Flow V α := p.orFail .db

def fetchGate (connectorId : Uuid) : Flow V (Option ConnectorGateRow) :=
  sql (ask (.fetchGate connectorId))
def fetchForRetry (connectorId : Uuid) : Flow V (Option ConnectorRetryRow) :=
  sql (ask (.fetchForRetry connectorId))
def claimEvent (e : NewEventRow) : Flow V (Option Uuid) := sql (ask (.claimEvent e))
def fetchByBusinessKey (connectorId : Uuid) (businessKey : String) : Flow V EventOutcomeRow :=
  sql (ask (.fetchByBusinessKey connectorId businessKey))
def fetchFailed (connectorId : Uuid) : Flow V (List FailedEventRow) :=
  sql (ask (.fetchFailed connectorId))
/-- Opens the transaction and binds the ambient org scope on it. -/
def begin : Flow V Unit := sql (ask .begin)
def updateTx (eventId : Uuid) (u : EventUpdate) : Flow V Nat := sql (ask (.updateTx eventId u))
def update (eventId : Uuid) (u : EventUpdate) : Flow V Nat := sql (ask (.update eventId u))
def commit : Flow V Unit := sql (ask .commit)
def rollback : Flow V Unit := sql (ask .rollback)
def newUuid : Flow V Uuid := Prog.answer (ask .newUuid)
def map (req : MapRequest V) : Flow V (Except MapRejected MapOutcome) :=
  Prog.answer (ask (.map req))
def publish (event : IntegrationEvent) : Flow V Unit := Prog.answer (ask (.publish event))

namespace IntegrationEvent

/-- The `etype` of `stage`. -/
def etype : IntegrationEvent → String
  | integrationEventMapped .. => "IntegrationEventMapped"
  | integrationEventFailed .. => "IntegrationEventFailed"
  | integrationEventIgnored .. => "IntegrationEventIgnored"

/-- The `agg_id` of `stage`. -/
def eventId : IntegrationEvent → Uuid
  | integrationEventMapped id .. | integrationEventFailed id .. | integrationEventIgnored id .. => id

def companyId : IntegrationEvent → Uuid
  | integrationEventMapped _ co .. | integrationEventFailed _ co ..
  | integrationEventIgnored _ co .. => co

/-- The outbox record of an event. -/
def record (ev : IntegrationEvent) : OutboxRecord where
  eventType := ev.etype
  aggregateType := "IntegrationEvent"
  aggregateId := ev.eventId
  companyId := ev.companyId
  payload := ev

end IntegrationEvent

def stage (event : IntegrationEvent) : Flow V Unit :=
  Prog.orFail (fun e => .invalid ("outbox stage: " ++ e)) (ask (.stage event.record))

/-! ## `receive_event` -/

structure InboundEvent (V : Type) where
  companyId : Uuid
  connectorId : Uuid
  eventType : String
  externalId : String
  businessKey : String
  raw : String
  payload : V
  deriving DecidableEq, Repr

structure ReceiveOutcome where
  eventId : Uuid
  status : IntegrationStatus
  mappedRefId : Option Uuid
  duplicate : Bool
  deriving DecidableEq, Repr

/-- The request that `receive_event` hands to the target. -/
def InboundEvent.mapRequest (e : InboundEvent V) (connectorKind : ConnectorKind) :
    MapRequest V where
  companyId := e.companyId
  connectorKind := connectorKind
  eventType := e.eventType
  externalId := e.externalId
  idempotencyKey := e.businessKey
  payload := e.payload

/-- The transaction that ends each branch of `receive_event`: the row and its record. -/
def settle (eventId : Uuid) (u : EventUpdate) (ev : IntegrationEvent) : Flow V Unit := do
  begin
  let _ ← updateTx eventId u
  stage ev
  commit
  publish ev

/-- The part of `receive_event` behind the dedup: only a call that won its claim gets here. -/
def deliver (e : InboundEvent V) (connectorKind : ConnectorKind) (eventId : Uuid) :
    Flow V ReceiveOutcome := do
  match ← map (e.mapRequest connectorKind) with
  | .ok (.mapped mref) =>
    settle eventId (.markMapped mref.internalRefType mref.internalRefId)
      (.integrationEventMapped eventId e.companyId e.connectorId e.eventType e.externalId
        mref.internalRefType mref.internalRefId)
    return ⟨eventId, .mapped, some mref.internalRefId, false⟩
  | .ok (.ignored reason) =>
    settle eventId (.markIgnored reason)
      (.integrationEventIgnored eventId e.companyId e.connectorId e.externalId reason)
    return ⟨eventId, .ignored, none, false⟩
  | .error rej =>
    settle eventId (.markFailed rej.message)
      (.integrationEventFailed eventId e.companyId e.connectorId e.externalId rej.code)
    return ⟨eventId, .failed, none, false⟩

def receiveEvent (e : InboundEvent V) : Flow V ReceiveOutcome := do
  if Text.isBlank e.externalId then
    throw (.invalid "an inbound event needs an external_id")
  if Text.isBlank e.businessKey then
    throw (.invalid "an inbound event needs a business_key (the order/transaction ref + state)")
  let some conn ← fetchGate e.connectorId | throw (.notFound "connector")
  if conn.status ≠ .active then
    throw (.invalidState "connector is not active")
  let id ← newUuid
  match ← claimEvent ⟨id, e.connectorId, e.eventType, e.externalId, e.businessKey, e.raw⟩ with
  | some eventId => deliver e conn.kind eventId
  | none =>
    let row ← fetchByBusinessKey e.connectorId e.businessKey
    return ⟨row.id, row.status, row.mappedRefId, true⟩

/-! ## `retry_failed` -/

/-- `serde_json`, as far as the module uses it. -/
structure JsonCodec (V : Type) where
  null : V
  fromStr : String → Option V

/-- The request that `retry_failed` rebuilds from a stored row. -/
def FailedEventRow.mapRequest (json : JsonCodec V) (companyId : Uuid)
    (connectorKind : ConnectorKind) (row : FailedEventRow) : MapRequest V where
  companyId := companyId
  connectorKind := connectorKind
  eventType := row.eventType
  externalId := row.externalId
  idempotencyKey := row.businessKey
  payload := (json.fromStr row.payload).getD json.null

/-- One pass of the loop. Answers with what it adds to the counter. -/
def retryRow (json : JsonCodec V) (companyId connectorId : Uuid) (connectorKind : ConnectorKind)
    (row : FailedEventRow) : Flow V Nat := do
  match ← map (row.mapRequest json companyId connectorKind) with
  | .ok (.mapped mref) =>
    let ev := .integrationEventMapped row.id companyId connectorId row.eventType row.externalId
      mref.internalRefType mref.internalRefId
    begin
    let m ← updateTx row.id (.retryMarkMapped mref.internalRefType mref.internalRefId)
    if m = 1 then
      stage ev
      commit
      publish ev
      return 1
    else
      rollback
      return 0
  | .ok (.ignored reason) =>
    let _ ← update row.id (.retryMarkIgnored reason)
    return 0
  | .error rej =>
    let _ ← update row.id (.setErrorDetail rej.message)
    return 0

def retryRows (json : JsonCodec V) (companyId connectorId : Uuid) (connectorKind : ConnectorKind) :
    List FailedEventRow → Nat → Flow V Nat
  | [], mapped => return mapped
  | row :: rows, mapped => do
    let m ← retryRow json companyId connectorId connectorKind row
    retryRows json companyId connectorId connectorKind rows (mapped + m)

def retryFailed (json : JsonCodec V) (companyId connectorId : Uuid) : Flow V Nat := do
  let some conn ← fetchForRetry connectorId | throw (.notFound "connector")
  let rows ← fetchFailed connectorId
  retryRows json companyId connectorId conn.kind rows 0

end BackboneIntegrations.Intake
