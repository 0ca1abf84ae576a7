import SaccoPlatform.Platform.Subscriptions

/-!
# Offboarding

`OffboardingService` of `app/platform_/tenants/offboarding_service.py`: an operator cancels,
restores or holds a tenant, and three daily sweeps move it on to `read_only`, `archived` and
`hard_deleted`. Every change of state writes a row of `tenant_lifecycle_events`.
-/

namespace SaccoPlatform.Platform

open Lib Session

/-- The settings of offboarding, in days. -/
structure OffboardingSettings where
  readOnlyDays : ℤ
  archiveDays : ℤ
  hardDeleteDays : ℤ
deriving DecidableEq

/-- The defaults of `app/core/config.py`. -/
def defaultSettings : OffboardingSettings := ⟨7, 83, 2555⟩

/-- The tenant in its new state, with the timestamp of `_AT_COLUMN`. -/
def TenantRow.enter (tenant : TenantRow) (toState : LifecycleState) (clock : Timestamp) :
    TenantRow :=
  let tenant := { tenant with lifecycleState := toState }
  match toState with
  | .active => tenant
  | .cancelled => { tenant with cancelledAt := some clock }
  | .readOnly => { tenant with readOnlyAt := some clock }
  | .archived => { tenant with archivedAt := some clock }
  | .hardDeleted => { tenant with hardDeletedAt := some clock }

namespace OffboardingService

/-- `OffboardingService._get`. -/
def getTenant (tenantId : Uuid) : PlatformCall TenantRow := do
  let db ← get
  orRaise (db.tenants.get? tenantId) (.valueError s!"Tenant {tenantId} not found")

/-- `INSERT INTO platform.tenant_lifecycle_events`. -/
def addEvent (event : LifecycleEventRow) : PlatformCall Unit := do
  let db ← get
  constraint (∀ actor, event.actorId = some actor → actor ∈ db.users)
    (.integrityError "tenant_lifecycle_events_actor_id_fkey")
  modify fun db => { db with lifecycleEvents := db.lifecycleEvents ++ [event] }

/-- `OffboardingService._transition`. -/
def transition (clock : Timestamp) (tenant : TenantRow) (toState : LifecycleState)
    (actorId : Option Uuid) (reason : Option String) : PlatformCall Unit := do
  writeTenant (tenant.enter toState clock)
  addEvent
    { tenantId := tenant.id, fromState := tenant.lifecycleState, toState, actorId, reason,
      metadata := none }

/-- `OffboardingService.cancel`. -/
def cancel (m : Moment) (tenantId actorId : Uuid) (reason : String) : PlatformCall Unit := do
  let tenant ← getTenant tenantId
  require (tenant.lifecycleState = .active)
    (.valueError s!"Cannot cancel tenant in state '{stateText tenant.lifecycleState}'")
  transition m.now tenant .cancelled (some actorId) (some reason)
  match tenant.currentSubscriptionId with
  | some subscriptionId =>
    SubscriptionService.cancel m subscriptionId s!"Tenant offboarding: {reason}" false
  | none => pure ()

/-- `_RESTORABLE`. -/
def restorable : List LifecycleState := [.cancelled, .readOnly, .archived]

/-- `OffboardingService.restore`. -/
def restore (m : Moment) (tenantId actorId : Uuid) : PlatformCall Unit := do
  let tenant ← getTenant tenantId
  require (tenant.lifecycleState ∈ restorable)
    (.valueError s!"Cannot restore tenant in state '{stateText tenant.lifecycleState}'")
  require (tenant.archiveChecksum = none) (.valueError "Tenant already physically archived")
  transition m.now tenant .active (some actorId) none
  writeTenant { tenant.enter .active m.now with
    cancelledAt := none, readOnlyAt := none, archivedAt := none }

/-- `OffboardingService.extend_retention`. -/
def extendRetention (tenantId actorId : Uuid) (holdUntil : Timestamp) : PlatformCall Unit := do
  let tenant ← getTenant tenantId
  writeTenant { tenant with retentionHoldUntil := some holdUntil }
  addEvent
    { tenantId := tenant.id, fromState := tenant.lifecycleState, toState := tenant.lifecycleState,
      actorId := some actorId, reason := some "retention extended", metadata := some holdUntil }

/-- A sweep: every tenant that is due enters `toState`. `clock` is what `datetime.now` reads when
the row of a tenant is stamped. -/
def sweep (due : TenantRow → Bool) (toState : LifecycleState) (clock : Uuid → Timestamp) :
    PlatformCall Unit := do
  let db ← get
  forEach (fun tenant => transition (clock tenant.id) tenant toState none none)
    (db.tenants.rows.filter due)

/-- `WHERE lifecycle_state = 'cancelled' AND cancelled_at <= cutoff`. -/
def dueReadOnly (cfg : OffboardingSettings) (now : Timestamp) (t : TenantRow) : Bool :=
  t.lifecycleState = .cancelled && t.cancelledAt.any (· ≤ now - days cfg.readOnlyDays)

/-- `WHERE lifecycle_state = 'read_only' AND read_only_at <= cutoff AND (retention_hold_until IS NULL
OR retention_hold_until <= now)`. -/
def dueArchived (cfg : OffboardingSettings) (now : Timestamp) (t : TenantRow) : Bool :=
  t.lifecycleState = .readOnly && t.readOnlyAt.any (· ≤ now - days cfg.archiveDays) &&
    t.retentionHoldUntil.all (· ≤ now)

/-- `WHERE lifecycle_state = 'archived' AND archived_at <= cutoff`: holds are not looked at. -/
def dueHardDeleted (cfg : OffboardingSettings) (now : Timestamp) (t : TenantRow) : Bool :=
  t.lifecycleState = .archived && t.archivedAt.any (· ≤ now - days cfg.hardDeleteDays)

/-- `OffboardingService.sweep_cancelled_to_read_only`. -/
def sweepCancelledToReadOnly (cfg : OffboardingSettings) (now : Timestamp)
    (clock : Uuid → Timestamp) : PlatformCall Unit :=
  sweep (dueReadOnly cfg now) .readOnly clock

/-- `OffboardingService.sweep_read_only_to_archived`. -/
def sweepReadOnlyToArchived (cfg : OffboardingSettings) (now : Timestamp)
    (clock : Uuid → Timestamp) : PlatformCall Unit :=
  sweep (dueArchived cfg now) .archived clock

/-- `OffboardingService.sweep_archived_to_hard_deleted`. -/
def sweepArchivedToHardDeleted (cfg : OffboardingSettings) (now : Timestamp)
    (clock : Uuid → Timestamp) : PlatformCall Unit :=
  sweep (dueHardDeleted cfg now) .hardDeleted clock

end OffboardingService

/-- An operation of `OffboardingService`, with what it reads of the clock. -/
inductive OffboardingOp where
  | cancel (m : Moment) (tenantId actorId : Uuid) (reason : String)
  | restore (m : Moment) (tenantId actorId : Uuid)
  | extendRetention (tenantId actorId : Uuid) (holdUntil : Timestamp)
  | sweepCancelledToReadOnly (now : Timestamp) (clock : Uuid → Timestamp)
  | sweepReadOnlyToArchived (now : Timestamp) (clock : Uuid → Timestamp)
  | sweepArchivedToHardDeleted (now : Timestamp) (clock : Uuid → Timestamp)

def OffboardingOp.perform (cfg : OffboardingSettings) : OffboardingOp → PlatformCall Unit
  | .cancel m tenantId actorId reason => OffboardingService.cancel m tenantId actorId reason
  | .restore m tenantId actorId => OffboardingService.restore m tenantId actorId
  | .extendRetention tenantId actorId holdUntil =>
    OffboardingService.extendRetention tenantId actorId holdUntil
  | .sweepCancelledToReadOnly now clock =>
    OffboardingService.sweepCancelledToReadOnly cfg now clock
  | .sweepReadOnlyToArchived now clock => OffboardingService.sweepReadOnlyToArchived cfg now clock
  | .sweepArchivedToHardDeleted now clock =>
    OffboardingService.sweepArchivedToHardDeleted cfg now clock

/-- One operation in a transaction of its own: a call that raises is rolled back. -/
def OffboardingOp.step (cfg : OffboardingSettings) (db : Db) (op : OffboardingOp) : Db :=
  commit (op.perform cfg) db

end SaccoPlatform.Platform
