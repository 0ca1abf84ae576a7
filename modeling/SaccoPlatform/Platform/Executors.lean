import SaccoPlatform.Database

/-!
# Executors of the platform

The maker-checker executors of `app/platform_/`: sensitive changes of platform users, support
impersonations, billing and tenants, with the service methods they call. Audit rows and the
outbox of the platform schema are left out.
-/

namespace SaccoPlatform

open Lib Session

namespace PlatformTables

def tenant? (p : PlatformTables) (id : Uuid) : Option Tenant := p.tenants.find? (·.id = id)

def subscription? (p : PlatformTables) (id : Uuid) : Option Subscription :=
  p.subscriptions.find? (·.id = id)

def invoice? (p : PlatformTables) (id : Uuid) : Option Invoice := p.invoices.find? (·.id = id)

def payment? (p : PlatformTables) (id : Uuid) : Option Payment := p.payments.find? (·.id = id)

def user? (p : PlatformTables) (id : Uuid) : Option PlatformUser := p.users.find? (·.id = id)

def putTenant (p : PlatformTables) (row : Tenant) : PlatformTables :=
  { p with tenants := p.tenants.map fun r => if r.id = row.id then row else r }

def putSubscription (p : PlatformTables) (row : Subscription) : PlatformTables :=
  { p with subscriptions := p.subscriptions.map fun r => if r.id = row.id then row else r }

def putInvoice (p : PlatformTables) (row : Invoice) : PlatformTables :=
  { p with invoices := p.invoices.map fun r => if r.id = row.id then row else r }

def putPayment (p : PlatformTables) (row : Payment) : PlatformTables :=
  { p with payments := p.payments.map fun r => if r.id = row.id then row else r }

def putUser (p : PlatformTables) (row : PlatformUser) : PlatformTables :=
  { p with users := p.users.map fun r => if r.id = row.id then row else r }

end PlatformTables

/-- Change the tables of the platform schema. -/
def modifyPlatform (f : PlatformTables → PlatformTables) : Call Unit :=
  modify fun t => { t with platform := f t.platform }

/-! ## Users and impersonations -/

/-- The payload of `platform_user.update_sensitive`. Only the id is required. -/
structure UpdateSensitivePayload where
  userId : Option Uuid
  isActive : Option Bool
  isSuperuser : Option Bool
  role : Option String
deriving DecidableEq, Repr

/-- The assignments of `PlatformUserService.update`, in order. -/
def PlatformUser.updated (user : PlatformUser) (isActive isSuperuser : Option Bool)
    (role : Option String) : PlatformUser :=
  let user := { user with isActive := isActive.getD user.isActive }
  let user := match role with
    | some role => { user with role, isSuperuser := role = "superuser" }
    | none => user
  match isSuperuser with
  | some true => { user with isSuperuser := true, role := "superuser" }
  | some false =>
    { user with isSuperuser := false, role := if user.role = "superuser" then "admin" else user.role }
  | none => user

/-- `_execute_update_sensitive`. -/
def executeUpdateSensitive (payload : UpdateSensitivePayload) : Call Unit := do
  let userId ← orRaise payload.userId (.keyError "user_id")
  let t ← get
  let user ← orRaise (t.platform.user? userId)
    (.valueError s!"Platform user {userId} not found")
  let user := user.updated payload.isActive payload.isSuperuser payload.role
  constraint (user.role ∈ ["support", "admin", "superuser"])
    (.integrityError "ck_platform_users_role")
  modifyPlatform (·.putUser user)

/-- The payload of `platform.start_impersonation`; the id of the request comes with it. -/
structure ImpersonationPayload where
  platformUserId : Option Uuid
  tenantId : Option Uuid
  reason : Option String
deriving DecidableEq, Repr

/-- `execute_start_impersonation`. -/
def executeStartImpersonation (payload : ImpersonationPayload) (approvalRequestId : Uuid) :
    Call Unit := do
  let platformUserId ← orRaise payload.platformUserId (.keyError "platform_user_id")
  let tenantId ← orRaise payload.tenantId (.keyError "tenant_id")
  let _ ← orRaise payload.reason (.keyError "reason")
  let t ← get
  match t.platform.impersonations.find? (·.approvalRequestId = some approvalRequestId) with
  | some _ => pure ()
  | none =>
    constraint (∃ u ∈ t.platform.users, u.id = platformUserId)
      (.integrityError "fk_support_impersonations_platform_user")
    constraint (∃ tenant ∈ t.platform.tenants, tenant.id = tenantId)
      (.integrityError "fk_support_impersonations_tenant")
    let id ← freshId
    modifyPlatform fun p => { p with
      impersonations := p.impersonations ++
        [⟨id, platformUserId, tenantId, some approvalRequestId⟩] }

/-! ## Billing -/

/-- `PaymentService.confirm` without a checker. -/
def confirmPayment (paymentId : Uuid) : Call Unit := do
  let t ← get
  let payment ← orRaise (t.platform.payment? paymentId)
    (.valueError s!"Payment {paymentId} not found")
  require (payment.status = .pending)
    (.billingError "Cannot confirm payment in its present status")
  let invoice ← orRaise (t.platform.invoice? payment.invoiceId)
    (.valueError s!"Invoice {payment.invoiceId} not found")
  let newPaid := invoice.amountPaid.val + payment.amount.val
  require (newPaid ≤ invoice.amountTotal.val)
    (.billingError (s!"Confirming would make amount_paid={newPaid} > " ++
      s!"amount_total={invoice.amountTotal.val}"))
  let amountPaid ← writeMoney newPaid
  let status := if newPaid = invoice.amountTotal.val then .paid
    else if 0 < newPaid then .partiallyPaid else invoice.status
  modifyPlatform fun p => (p.putPayment { payment with status := .confirmed }).putInvoice
    { invoice with amountPaid, status }

/-- `execute_confirm_payment`. -/
def executeConfirmPayment (paymentId : Option Uuid) : Call Unit := do
  let paymentId ← orRaise paymentId (.keyError "payment_id")
  let t ← get
  if (t.platform.payment? paymentId).any (·.status = .confirmed) then pure ()
  else confirmPayment paymentId

/-- `InvoiceService.void`. -/
def voidInvoice (invoiceId : Uuid) (reason : String) : Call Unit := do
  let t ← get
  let invoice ← orRaise (t.platform.invoice? invoiceId)
    (.valueError s!"Invoice {invoiceId} not found")
  require (invoice.status ≠ .void) (.billingError s!"Invoice {invoiceId} is already void")
  require (¬ 0 < invoice.amountPaid.val)
    (.billingError (s!"Invoice {invoiceId} has amount_paid={invoice.amountPaid.val}; " ++
      "reverse payments before voiding"))
  modifyPlatform (·.putInvoice { invoice with status := .void, voidReason := some reason })

/-- `execute_void_invoice`. -/
def executeVoidInvoice (invoiceId : Option Uuid) (reason : Option String) : Call Unit := do
  let invoiceId ← orRaise invoiceId (.keyError "invoice_id")
  let reason ← orRaise reason (.keyError "reason")
  let t ← get
  if (t.platform.invoice? invoiceId).any (·.status = .void) then pure ()
  else voidInvoice invoiceId reason

/-- `SubscriptionService.cancel` with `cancel_at_period_end=False`: the subscription is written
before its tenant is looked up. -/
def cancelSubscription (subscriptionId : Uuid) (reason : String) : Call Unit := do
  let t ← get
  let sub ← orRaise (t.platform.subscription? subscriptionId)
    (.valueError s!"Subscription {subscriptionId} not found")
  require (sub.status ≠ .cancelled)
    (.billingError "cannot transition from 'cancelled' to 'cancelled'")
  modifyPlatform (·.putSubscription
    { sub with status := .cancelled, cancellationReason := some reason })
  let tenant ← orRaise (t.platform.tenant? sub.tenantId)
    (.valueError s!"Tenant {sub.tenantId} not found")
  modifyPlatform (·.putTenant
    { tenant with subscriptionStatus := .cancelled, currentSubscriptionId := some sub.id })

/-- `execute_cancel_subscription`. -/
def executeCancelSubscription (subscriptionId : Option Uuid) (reason : Option String) :
    Call Unit := do
  let subscriptionId ← orRaise subscriptionId (.keyError "subscription_id")
  let reason ← orRaise reason (.keyError "reason")
  let t ← get
  if (t.platform.subscription? subscriptionId).any (·.status = .cancelled) then pure ()
  else cancelSubscription subscriptionId reason

/-! ## Tenants -/

/-- `execute_tenant_suspend`. -/
def executeTenantSuspend (tenantId : Option Uuid) : Call Unit := do
  let tenantId ← orRaise tenantId (.keyError "tenant_id")
  let t ← get
  let tenant ← orRaise (t.platform.tenant? tenantId) (.valueError s!"Tenant {tenantId} not found")
  when (tenant.status ≠ .suspended) do
    modifyPlatform (·.putTenant
      { tenant with isActive := false, status := .suspended, subscriptionStatus := .suspended })

/-- The payload of `tenant.cancel`. -/
structure TenantCancelPayload where
  tenantId : Option Uuid
  requestedBy : Option Uuid
  reason : Option String
deriving DecidableEq, Repr

/-- `OffboardingService._transition`. -/
def transitionTenant (tenant : Tenant) (toState : LifecycleState) (actorId : Uuid) :
    Call Unit := do
  let t ← get
  constraint (∃ u ∈ t.platform.users, u.id = actorId)
    (.integrityError "tenant_lifecycle_events_actor_id_fkey")
  modifyPlatform fun p =>
    { p.putTenant { tenant with lifecycleState := toState } with
      lifecycleEvents := p.lifecycleEvents ++ [⟨tenant.id, tenant.lifecycleState, toState⟩] }

/-- `execute_tenant_cancel`: the lifecycle moves before billing is cancelled. -/
def executeTenantCancel (payload : TenantCancelPayload) : Call Unit := do
  let tenantId ← orRaise payload.tenantId (.keyError "tenant_id")
  let actorId ← orRaise payload.requestedBy (.keyError "requested_by")
  let reason ← orRaise payload.reason (.keyError "reason")
  let t ← get
  let tenant ← orRaise (t.platform.tenant? tenantId) (.valueError s!"Tenant {tenantId} not found")
  require (tenant.lifecycleState = .active)
    (.valueError "Cannot cancel tenant in its present state")
  transitionTenant tenant .cancelled actorId
  match tenant.currentSubscriptionId with
  | some subscriptionId => cancelSubscription subscriptionId s!"Tenant offboarding: {reason}"
  | none => pure ()

/-- `_execute_retry_provisioning` dispatches a task and writes nothing. -/
def executeRetryProvisioning (tenantId : Option Uuid) : Call Unit := do
  let _ ← orRaise tenantId (.keyError "tenant_id")

end SaccoPlatform
