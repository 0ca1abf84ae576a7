import SaccoPlatform.Credit.Consumer
import SaccoPlatform.Fees.Service
import Mathlib.Data.List.Sort

/-!
# The outbox table and its jobs

Three jobs work on `outbox_events`: the relay (`app/core/outbox/worker.py`) publishes the rows to
the broker, the consumers of the credit and the fee module (`app/modules/credit/consumer.py`,
`app/modules/fees/consumer.py`) poll it for the events that they handle, and the retention task
(`app/core/outbox/retention.py`) deletes old rows. Each has its own notion of done: `published_at`,
a row of `processed_events`, a cutoff.

Times are microseconds. The outbox of `Tables` holds what the open transaction publishes; with the
commit it becomes rows.
-/

namespace SaccoPlatform

open Lib Session

/-- `event_type`. -/
def EventBody.eventType : EventBody → String
  | feeAssessmentCreated _ => "FeeAssessmentCreated"
  | feeCollectionCreated _ => "FeeCollectionCreated"
  | loanRepaymentPosted _ _ => "LoanRepaymentPosted"
  | loanClosed _ => "LoanClosed"
  | loanWrittenOff _ _ => "LoanWrittenOff"
  | loanRecoveryPosted _ _ => "LoanRecoveryPosted"
  | loanRestructured _ => "LoanRestructured"
  | memberActivated _ => "MemberActivated"

/-- `outbox_events`, with the columns of the relay. -/
structure OutboxRow where
  event : OutboxEvent
  occurredAt : ℕ
  publishedAt : Option ℕ
  attempts : ℕ
  lastError : Option String
  nextAttemptAt : Option ℕ
  isDeadLettered : Bool
deriving DecidableEq, Repr

def OutboxRow.new (now : ℕ) (event : OutboxEvent) : OutboxRow :=
  ⟨event, now, none, 0, none, none, false⟩

inductive TriggerKind where
  | event | schedule | manual
deriving DecidableEq, Repr

/-- `fee_types`, with the columns that the event consumer selects by. -/
structure EventFeeType where
  feeType : FeeType
  triggerKind : TriggerKind
  isActive : Bool
  eventName : Option String
deriving DecidableEq, Repr

/-- `consumer_name`: `credit.event_consumer` and `fees.event_consumer`. -/
inductive PollingConsumer where
  | credit | fees
deriving DecidableEq, Repr

/-- The schema of a tenant as the three jobs see it. -/
structure Outbox where
  tables : Tables
  feeTypes : List EventFeeType
  rows : List OutboxRow
  processed : List (Uuid × PollingConsumer)
  clock : ℕ

/-- The commit of a transaction that leaves these tables: what it published becomes rows. -/
def Outbox.put (db : Outbox) (tables : Tables) : Outbox :=
  { db with
    tables := { tables with outbox := [] }
    rows := db.rows ++ tables.outbox.map (.new db.clock) }

/-! ## The relay -/

def seconds (n : ℕ) : ℕ := n * 1000000

/-- `_next_attempt_delta`. -/
def nextAttemptDelta (attempts : ℕ) : ℕ := seconds (min (30 * 2 ^ attempts) 3600)

/-- How long the broker takes for a message, and the error if it does not confirm it. -/
structure Attempt where
  elapsed : ℕ
  error : Option String

/-- One tick as seen from the broker: what it does with each message, and how many batches are
committed before the connection breaks. -/
structure Broker where
  attempt : Uuid → Attempt
  commits : ℕ

/-- The row behind `exchange.publish`, at the time `now`. -/
def OutboxRow.attempted (r : OutboxRow) (now : ℕ) : Option String → OutboxRow
  | none => { r with publishedAt := some now, attempts := r.attempts + 1 }
  | some error =>
    { r with
      attempts := r.attempts + 1
      lastError := some error
      nextAttemptAt := some (now + nextAttemptDelta r.attempts)
      isDeadLettered := r.isDeadLettered || decide (10 ≤ r.attempts + 1) }

/-- The rows that a tick started at `now` takes next. -/
def Outbox.ready (db : Outbox) (now : ℕ) : List OutboxRow :=
  ((db.rows.filter fun r => r.publishedAt = none ∧ r.isDeadLettered = false ∧
      ∀ next ∈ r.nextAttemptAt, next ≤ now).insertionSort
    fun a b => a.occurredAt ≤ b.occurredAt).take 100

/-- One row of the batch. -/
def Outbox.publishRow (attempt : Uuid → Attempt) (db : Outbox) (row : OutboxRow) : Outbox :=
  let now := db.clock + (attempt row.event.id).elapsed
  { db with
    clock := now
    rows := db.rows.map fun r =>
      if r.event.id = row.event.id then r.attempted now (attempt row.event.id).error else r }

/-- The loop of `_relay_outbox`, behind `total` processed rows. A batch is a transaction of its
own; the one in which the connection breaks is rolled back and ends the tick. -/
def Outbox.relayLoop (attempt : Uuid → Attempt) (now : ℕ) : ℕ → ℕ → Outbox → Outbox
  | 0, _, db => db
  | commits + 1, total, db =>
    if total < 1000 ∧ db.clock < now + seconds 30 ∧ db.ready now ≠ [] then
      relayLoop attempt now commits (total + (db.ready now).length)
        (run (publishRow attempt) db (db.ready now))
    else db

/-- `_relay_outbox`. -/
def Outbox.relay (broker : Broker) (db : Outbox) : Outbox :=
  db.relayLoop broker.attempt db.clock broker.commits 0

/-! ## The consumers -/

/-- The fee types that an event triggers. -/
def Outbox.activeFeeTypes (db : Outbox) : List EventFeeType :=
  db.feeTypes.filter fun f =>
    f.triggerKind = .event ∧ f.isActive = true ∧ f.eventName.isSome = true

/-- The event types that a consumer handles. -/
def Outbox.eventNames (db : Outbox) : PollingConsumer → List String
  | .credit => ["FeeAssessmentCreated", "FeeCollectionCreated"]
  | .fees => db.activeFeeTypes.filterMap (·.eventName)

/-- The events that a consumer handles and has not recorded, oldest first. -/
def Outbox.pending (db : Outbox) (c : PollingConsumer) : List OutboxRow :=
  (db.rows.filter fun r => r.event.body.eventType ∈ db.eventNames c ∧
    (r.event.id, c) ∉ db.processed).insertionSort fun a b => a.occurredAt ≤ b.occurredAt

def Outbox.batch (db : Outbox) (c : PollingConsumer) : List OutboxRow := (db.pending c).take 50

/-- `_handle_event` of the fee module. -/
def handleFeeEvent (today : Date) (feeTypes : List EventFeeType) (event : OutboxEvent) : Call Unit :=
  match event.body with
  | .memberActivated memberId =>
    forEach (fun f => do
        let _ ← assess ⟨f.feeType, "member", memberId, today, 0,
          s!"event-{event.id}-{f.feeType.id}"⟩)
      (feeTypes.filter (·.eventName = some event.body.eventType))
  | _ => pure ()

/-- `_handle_event`. -/
def PollingConsumer.handle (c : PollingConsumer) (today : Date) (feeTypes : List EventFeeType)
    (event : OutboxEvent) : Call Unit :=
  match c with
  | credit => handleEvent event.body
  | fees => handleFeeEvent today feeTypes event

/-- One event of a batch, in its savepoint. -/
def Outbox.consumeRow (c : PollingConsumer) (today : Date) (feeTypes : List EventFeeType)
    (db : Outbox) (row : OutboxRow) : Outbox :=
  if (row.event.id, c) ∈ db.processed then db
  else
    match c.handle today feeTypes row.event db.tables with
    | .ok _ tables => { db.put tables with processed := db.processed ++ [(row.event.id, c)] }
    | _ => db

/-- `_process_tenant_events`. Without a fee type that an event triggers, the batch of the fee
consumer is empty. -/
def Outbox.consume (db : Outbox) (c : PollingConsumer) (today : Date) : Outbox :=
  run (consumeRow c today db.activeFeeTypes) db (db.batch c)

/-! ## Retention -/

/-- `published_at IS NOT NULL AND published_at < :cutoff`. -/
def OutboxRow.expired (r : OutboxRow) (cutoff : ℕ) : Bool :=
  match r.publishedAt with
  | none => false
  | some published => published < cutoff

/-- `_purge`. The task calls it with the cutoff `now - outbox_retention_days`. -/
def Outbox.purge (db : Outbox) (cutoff : ℕ) : Outbox :=
  { db with rows := db.rows.filter fun r => ¬ r.expired cutoff }

/-! ## Runs -/

/-- A business transaction leaves the tables and the fee types in any state and publishes any
events; `wait` is the time between two jobs. -/
inductive OutboxOp where
  | transact (tables : Tables) (feeTypes : List EventFeeType)
  | relay (broker : Broker)
  | consume (c : PollingConsumer) (today : Date)
  | purge (cutoff : ℕ)
  | wait (elapsed : ℕ)

def OutboxOp.step (db : Outbox) : OutboxOp → Outbox
  | transact tables feeTypes => { db.put tables with feeTypes := feeTypes }
  | relay broker => db.relay broker
  | consume c today => db.consume c today
  | purge cutoff => db.purge cutoff
  | wait elapsed => { db with clock := db.clock + elapsed }

/-- An empty outbox. -/
def Outbox.empty (tables : Tables) : Outbox := ⟨{ tables with outbox := [] }, [], [], [], 0⟩

end SaccoPlatform
