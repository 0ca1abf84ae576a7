import SaccoPlatform.Database
import SaccoPlatform.Lib.Keyed
import SaccoPlatform.Lib.Runs

/-!
# The platform schema

The tables of `platform.*` with the columns that billing, tenant management and offboarding work
with. Each row extends the row that the maker-checker executors see. The primary keys and the
partial unique index `uq_subscriptions_live_tenant` are part of the types: a write that would break
the index is refused, as the database refuses it.

Instants are counted in microseconds, dates in days. The audit tables and the outbox of the platform
schema are left out: no modelled service reads them back.
-/

namespace SaccoPlatform.Platform

open Lib Session

/-- A `TIMESTAMP WITH TIME ZONE`, in microseconds. -/
abbrev Timestamp := ℤ

/-- `timedelta(days=n)`. -/
def days (n : ℤ) : ℤ := n * 86400000000

/-- The readings of `datetime.now(UTC)` and `date.today()` in one call. -/
structure Moment where
  now : Timestamp
  today : Date
deriving DecidableEq

/-! ## Rows -/

inductive BillingPeriod where
  | monthly | quarterly | annual
deriving DecidableEq, Repr

/-- `_BILLING_PERIOD_DAYS`. -/
def BillingPeriod.days : BillingPeriod → ℕ
  | .monthly => 30
  | .quarterly => 90
  | .annual => 365

/-- `platform.subscription_plans`. -/
structure SubscriptionPlan where
  id : Uuid
  code : String
  currency : String
  basePrice : Money
  billingPeriod : BillingPeriod
  trialPeriodDays : ℤ
  gracePeriodDays : ℤ
  isActive : Bool
deriving DecidableEq

/-- `platform.tenants`. -/
structure TenantRow extends Tenant where
  slug : String
  schemaName : String
  cancelledAt : Option Timestamp
  readOnlyAt : Option Timestamp
  archivedAt : Option Timestamp
  hardDeletedAt : Option Timestamp
  retentionHoldUntil : Option Timestamp
  archiveChecksum : Option String
deriving DecidableEq

/-- `platform.tenant_lifecycle_events`; the only metadata written is the date of a hold. -/
structure LifecycleEventRow extends TenantLifecycleEvent where
  actorId : Option Uuid
  reason : Option String
  metadata : Option Timestamp
deriving DecidableEq

/-- `platform.subscriptions`. -/
structure SubscriptionRow extends Subscription where
  planId : Uuid
  startedAt : Timestamp
  currentPeriodStart : Date
  currentPeriodEnd : Date
  gracePeriodEndsAt : Option Date
  cancelledAt : Option Timestamp
  nextBillingDate : Option Date
deriving DecidableEq

/-- `platform.invoices`. -/
structure InvoiceRow extends Invoice where
  invoiceNumber : String
  subscriptionId : Uuid
  tenantId : Uuid
  billingPeriodStart : Date
  billingPeriodEnd : Date
  amountSubtotal : Money
  amountTax : Money
  currency : String
  issuedAt : Option Timestamp
  dueAt : Date
  paidAt : Option Timestamp
  voidedAt : Option Timestamp
deriving DecidableEq

inductive PaymentMethod where
  | bankTransfer | mobileMoney | cash | cheque
deriving DecidableEq, Repr

/-- `platform.payments`. -/
structure PaymentRow extends Payment where
  currency : String
  paymentMethod : PaymentMethod
  externalReference : Option String
  notes : Option String
  idempotencyKey : String
  recordedBy : Uuid
  recordedAt : Timestamp
  confirmedAt : Option Timestamp
deriving DecidableEq

/-! ## The texts of the statuses -/

def statusText : SubscriptionStatus → String
  | .pending => "pending"
  | .trialing => "trialing"
  | .active => "active"
  | .pastDue => "past_due"
  | .suspended => "suspended"
  | .cancelled => "cancelled"

def stateText : LifecycleState → String
  | .active => "active"
  | .cancelled => "cancelled"
  | .readOnly => "read_only"
  | .archived => "archived"
  | .hardDeleted => "hard_deleted"

def tenantStatusText : TenantStatus → String
  | .pending => "pending"
  | .provisioning => "provisioning"
  | .active => "active"
  | .suspended => "suspended"
  | .failed => "failed"
  | .deprovisioning => "deprovisioning"
  | .archived => "archived"

/-! ## Subscriptions -/

/-- `_LIVE_STATUSES`, and the predicate of `uq_subscriptions_live_tenant`. -/
def IsLive (status : SubscriptionStatus) : Prop :=
  status = .trialing ∨ status = .active ∨ status = .pastDue

instance (status : SubscriptionStatus) : Decidable (IsLive status) :=
  inferInstanceAs (Decidable (_ ∨ _ ∨ _))

/-- At most one live subscription for each tenant. -/
def OneLive (rows : List SubscriptionRow) : Prop :=
  ∀ s ∈ rows, ∀ s' ∈ rows, IsLive s.status → IsLive s'.status → s.tenantId = s'.tenantId →
    s.id = s'.id

instance (rows : List SubscriptionRow) : Decidable (OneLive rows) := by
  unfold OneLive
  infer_instance

/-- `platform.subscriptions` with its indexes. -/
structure Subscriptions extends Keyed (fun s : SubscriptionRow => s.id) where
  oneLive : OneLive rows

instance : DecidableEq Subscriptions
  | ⟨xs, _⟩, ⟨ys, _⟩ =>
    decidable_of_iff (xs = ys)
      ⟨fun h => by subst h; rfl, fun h => congrArg Subscriptions.toKeyed h⟩

namespace Subscriptions

/-- `UPDATE`, refused when the unique index would break. -/
def put? (subs : Subscriptions) (row : SubscriptionRow) : Option Subscriptions :=
  if h : OneLive (subs.put row).rows then some ⟨subs.put row, h⟩ else none

/-- `INSERT`, refused when the unique index would break. -/
def insert? (subs : Subscriptions) (f : Uuid → SubscriptionRow) (hf : ∀ k, (f k).id = k) :
    Option Subscriptions :=
  if h : OneLive (subs.insertNew f hf).rows then some ⟨subs.insertNew f hf, h⟩ else none

theorem toKeyed_of_put? {subs subs' : Subscriptions} {row : SubscriptionRow}
    (h : subs.put? row = some subs') : subs'.toKeyed = subs.put row := by
  unfold put? at h
  split at h
  · rw [← Option.some.inj h]
  · cases h

theorem toKeyed_of_insert? {subs subs' : Subscriptions} {f : Uuid → SubscriptionRow}
    {hf : ∀ k, (f k).id = k} (h : subs.insert? f hf = some subs') :
    subs'.toKeyed = subs.insertNew f hf := by
  unfold insert? at h
  split at h
  · rw [← Option.some.inj h]
  · cases h

/-- The tenant's live subscription. -/
def liveFor (subs : Subscriptions) (tenantId : Uuid) : Option SubscriptionRow :=
  subs.rows.find? fun s => s.tenantId = tenantId ∧ IsLive s.status

theorem liveFor_eq_some {subs : Subscriptions} {tenantId : Uuid} {s : SubscriptionRow} :
    subs.liveFor tenantId = some s ↔ s ∈ subs.rows ∧ s.tenantId = tenantId ∧ IsLive s.status := by
  constructor
  · intro h
    exact ⟨List.mem_of_find?_eq_some h, by simpa using List.find?_some h⟩
  · rintro ⟨hs, htenant, hlive⟩
    have hsome : (subs.liveFor tenantId).isSome := by
      rw [liveFor, List.find?_isSome]
      exact ⟨s, hs, by simp [htenant, hlive]⟩
    obtain ⟨s', hs'⟩ := Option.isSome_iff_exists.mp hsome
    have hmem : s' ∈ subs.rows := List.mem_of_find?_eq_some hs'
    have hspec : s'.tenantId = tenantId ∧ IsLive s'.status := by
      simpa using List.find?_some hs'
    have hid : s'.id = s.id :=
      subs.oneLive s' hmem s hs hspec.2 hlive (hspec.1.trans htenant.symm)
    rw [hs', subs.eq_of_key hmem hs hid]

end Subscriptions

/-! ## The tables -/

/-- The tables of the platform schema. -/
structure Db where
  users : List Uuid
  plans : Keyed SubscriptionPlan.id
  tenants : Keyed (fun t : TenantRow => t.id)
  lifecycleEvents : List LifecycleEventRow
  subscriptions : Subscriptions
  invoices : Keyed (fun i : InvoiceRow => i.id)
  payments : Keyed (fun p : PaymentRow => p.id)
  /-- The `invoice_seq_YYYY` sequences that exist, each with the value it gave last. -/
  invoiceSeqs : List (ℕ × ℕ)
deriving DecidableEq

theorem Db.id_of_tenant {db : Db} {id : Uuid} {t : TenantRow} (h : db.tenants.get? id = some t) :
    t.id = id := by
  have hkey := Keyed.key_of_get? h
  exact hkey

theorem Db.id_of_subscription {db : Db} {id : Uuid} {s : SubscriptionRow}
    (h : db.subscriptions.get? id = some s) : s.id = id := by
  have hkey := Keyed.key_of_get? h
  exact hkey

/-- A call inside a platform session. -/
abbrev PlatformCall := Session Db Err

/-- `UPDATE platform.tenants`. -/
def writeTenant (row : TenantRow) : PlatformCall Unit :=
  modify fun db => { db with tenants := db.tenants.put row }

/-- `UPDATE platform.subscriptions`. -/
def writeSubscription (row : SubscriptionRow) : PlatformCall Unit := fun db =>
  match db.subscriptions.put? row with
  | some subscriptions => .ok () { db with subscriptions }
  | none => .aborted (.integrityError "uq_subscriptions_live_tenant")

theorem writeSubscription_eq_ok {row : SubscriptionRow} {db db' : Db} {u : Unit} :
    writeSubscription row db = .ok u db' ↔
      ∃ subs, db.subscriptions.put? row = some subs ∧ db' = { db with subscriptions := subs } := by
  unfold writeSubscription
  cases db.subscriptions.put? row with
  | none => simp
  | some subs => simp [eq_comm]

/-! ## A first tenant -/

/-- A tenant as provisioning leaves it. -/
def freshTenant : TenantRow where
  id := 1
  isActive := true
  status := .active
  subscriptionStatus := .pending
  currentSubscriptionId := none
  lifecycleState := .active
  slug := "umoja"
  schemaName := "tenant_umoja"
  cancelledAt := none
  readOnlyAt := none
  archivedAt := none
  hardDeletedAt := none
  retentionHoldUntil := none
  archiveChecksum := none

/-- A platform with one operator and one tenant. -/
def freshDb : Db where
  users := [9]
  plans := ⟨[], List.nodup_nil⟩
  tenants := ⟨[freshTenant], by decide⟩
  lifecycleEvents := []
  subscriptions := ⟨⟨[], List.nodup_nil⟩, by decide⟩
  invoices := ⟨[], List.nodup_nil⟩
  payments := ⟨[], List.nodup_nil⟩
  invoiceSeqs := []

/-- The first day of the examples. -/
def dayOne : Date := ⟨739000, by decide⟩

/-- A monthly plan without a trial. -/
def monthlyPlan : SubscriptionPlan where
  id := 3
  code := "starter"
  currency := "UGX"
  basePrice := (Numeric.ofRat? 50000).getD 0
  billingPeriod := .monthly
  trialPeriodDays := 0
  gracePeriodDays := 30
  isActive := true

/-- The sample tenant and a plan to assign. -/
def plannedDb : Db := { freshDb with plans := ⟨[monthlyPlan], by decide⟩ }

end SaccoPlatform.Platform
