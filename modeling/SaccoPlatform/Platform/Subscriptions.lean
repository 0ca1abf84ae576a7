import SaccoPlatform.Platform.Schema

/-!
# Subscriptions and tenants

`SubscriptionService` of `app/platform_/billing/services/` and the commands of `TenantService` that
suspend and reactivate a tenant. Both copy a status into `platform.tenants.subscription_status`,
which the gate of every tenant request reads.
-/

namespace SaccoPlatform.Platform

open Lib Session

/-- `InvalidTransition`. -/
def invalidTransition (fromStatus toStatus : SubscriptionStatus) : Err :=
  .billingError s!"cannot transition from '{statusText fromStatus}' to '{statusText toStatus}'"

/-! ## `SubscriptionService` -/

/-- `SubscriptionService._sync_tenant_status`. -/
def SubscriptionService.syncTenantStatus (tenantId : Uuid) (newStatus : SubscriptionStatus)
    (currentSubscriptionId : Uuid) : PlatformCall Unit := do
  let db ← get
  let tenant ← orRaise (db.tenants.get? tenantId) (.valueError s!"Tenant {tenantId} not found")
  writeTenant { tenant with
    subscriptionStatus := newStatus, currentSubscriptionId := some currentSubscriptionId }

/-- The status and the length of the first period of a subscription to a plan. -/
def SubscriptionPlan.firstPeriod (plan : SubscriptionPlan) : SubscriptionStatus × ℤ :=
  if 0 < plan.trialPeriodDays then (.trialing, plan.trialPeriodDays)
  else (.active, plan.billingPeriod.days)

/-- The subscription that `assign` adds, under the id it is given. -/
def newSubscription (m : Moment) (tenantId : Uuid) (plan : SubscriptionPlan)
    (periodStart periodEnd : Date) (id : Uuid) : SubscriptionRow where
  id := id
  tenantId := tenantId
  status := plan.firstPeriod.1
  cancellationReason := none
  planId := plan.id
  startedAt := m.now
  currentPeriodStart := periodStart
  currentPeriodEnd := periodEnd
  gracePeriodEndsAt := none
  cancelledAt := none
  nextBillingDate := some periodEnd

/-- `INSERT INTO platform.subscriptions`; the index stands against a live subscription that was
added since the check. -/
def insertSubscription (tenantId : Uuid) (f : Uuid → SubscriptionRow) (hf : ∀ id, (f id).id = id) :
    PlatformCall Uuid := fun db =>
  match db.subscriptions.insert? f hf with
  | some subscriptions => .ok db.subscriptions.fresh { db with subscriptions }
  | none => .aborted (.billingError
      s!"Tenant {tenantId} already has a live subscription (race)")

/-- `SubscriptionService.assign`. -/
def SubscriptionService.assign (m : Moment) (tenantId planId : Uuid) (startDate : Option Date) :
    PlatformCall Uuid := do
  let db ← get
  let tenant ← orRaise (db.tenants.get? tenantId) (.valueError s!"Tenant {tenantId} not found")
  let plan ← orRaise (db.plans.get? planId)
    (.valueError s!"SubscriptionPlan {planId} not found")
  require (plan.isActive = true) (.billingError s!"Plan '{plan.code}' is not active")
  match db.subscriptions.liveFor tenantId with
  | some existing =>
    raise (.billingError (s!"Tenant {tenantId} already has a live subscription " ++
      s!"({existing.id}, status='{statusText existing.status}')"))
  | none =>
    let periodStart := startDate.getD m.today
    let periodEnd ← orRaise (periodStart.addDays? plan.firstPeriod.2) .overflowError
    let id ← insertSubscription tenantId (newSubscription m tenantId plan periodStart periodEnd)
      fun _ => rfl
    writeTenant { tenant with
      subscriptionStatus := plan.firstPeriod.1, currentSubscriptionId := some id }
    pure id

/-- The subscription a command is about. -/
def getSubscription (subscriptionId : Uuid) : PlatformCall SubscriptionRow := do
  let db ← get
  orRaise (db.subscriptions.get? subscriptionId)
    (.valueError s!"Subscription {subscriptionId} not found")

/-- The plan of a subscription. -/
def getPlan (sub : SubscriptionRow) : PlatformCall SubscriptionPlan := do
  let db ← get
  orRaise (db.plans.get? sub.planId) (.valueError s!"SubscriptionPlan {sub.planId} not found")

/-- `SubscriptionService.cancel`. With `cancelAtPeriodEnd` only the marker is set. -/
def SubscriptionService.cancel (m : Moment) (subscriptionId : Uuid) (reason : String)
    (cancelAtPeriodEnd : Bool) : PlatformCall Unit := do
  let sub ← getSubscription subscriptionId
  require (sub.status ≠ .cancelled) (invalidTransition sub.status .cancelled)
  let marked := { sub with cancelledAt := some m.now, cancellationReason := some reason }
  if cancelAtPeriodEnd then
    writeSubscription marked
  else
    writeSubscription { marked with status := .cancelled }
    SubscriptionService.syncTenantStatus sub.tenantId .cancelled sub.id

/-- `SubscriptionService.reactivate`. -/
def SubscriptionService.reactivate (m : Moment) (subscriptionId : Uuid) : PlatformCall Unit := do
  let sub ← getSubscription subscriptionId
  require (sub.status = .pastDue ∨ sub.status = .suspended) (invalidTransition sub.status .active)
  let plan ← getPlan sub
  let periodEnd ← orRaise (m.today.addDays? plan.billingPeriod.days) .overflowError
  writeSubscription { sub with
    status := .active, currentPeriodStart := m.today, currentPeriodEnd := periodEnd,
    nextBillingDate := some periodEnd, gracePeriodEndsAt := none }
  SubscriptionService.syncTenantStatus sub.tenantId .active sub.id

/-- `SubscriptionService.transition_to_past_due`. -/
def SubscriptionService.transitionToPastDue (m : Moment) (subscriptionId : Uuid) :
    PlatformCall Unit := do
  let sub ← getSubscription subscriptionId
  require (sub.status = .active ∨ sub.status = .trialing) (invalidTransition sub.status .pastDue)
  let plan ← getPlan sub
  let graceEnd ← orRaise (m.today.addDays? plan.gracePeriodDays) .overflowError
  writeSubscription { sub with status := .pastDue, gracePeriodEndsAt := some graceEnd }
  SubscriptionService.syncTenantStatus sub.tenantId .pastDue sub.id

/-- `SubscriptionService.transition_to_suspended`. -/
def SubscriptionService.transitionToSuspended (subscriptionId : Uuid) : PlatformCall Unit := do
  let sub ← getSubscription subscriptionId
  require (sub.status = .pastDue) (invalidTransition sub.status .suspended)
  writeSubscription { sub with status := .suspended }
  SubscriptionService.syncTenantStatus sub.tenantId .suspended sub.id

/-! ## `TenantService` -/

/-- `TenantService.suspend`. -/
def TenantService.suspend (tenantId : Uuid) : PlatformCall Unit := do
  let db ← get
  let tenant ← orRaise (db.tenants.get? tenantId) (.valueError s!"Tenant {tenantId} not found")
  when (tenant.status ≠ .suspended) do
    writeTenant { tenant with
      isActive := false, status := .suspended, subscriptionStatus := .suspended }

/-- `TenantService.reactivate`. The index leaves one live subscription for the query to find. -/
def TenantService.reactivate (tenantId : Uuid) : PlatformCall Unit := do
  let db ← get
  let tenant ← orRaise (db.tenants.get? tenantId) (.valueError s!"Tenant {tenantId} not found")
  require (tenant.status = .suspended)
    (.valueError (s!"Tenant {tenantId} is in status '{tenantStatusText tenant.status}', " ++
      "not 'suspended' — reactivate is only valid from suspended state"))
  let live := db.subscriptions.liveFor tenantId
  writeTenant { tenant with
    isActive := true, status := .active,
    subscriptionStatus := (live.map (·.status)).getD .pending,
    currentSubscriptionId := (live.map (some ·.id)).getD tenant.currentSubscriptionId }

/-! ## The commands -/

/-- A command of the two services, with what it reads of the clock. -/
inductive BillingOp where
  | assign (m : Moment) (tenantId planId : Uuid) (startDate : Option Date)
  | cancel (m : Moment) (subscriptionId : Uuid) (reason : String) (cancelAtPeriodEnd : Bool)
  | reactivate (m : Moment) (subscriptionId : Uuid)
  | transitionToPastDue (m : Moment) (subscriptionId : Uuid)
  | transitionToSuspended (subscriptionId : Uuid)
  | suspend (tenantId : Uuid)
  | reactivateTenant (tenantId : Uuid)
deriving DecidableEq

def BillingOp.perform : BillingOp → PlatformCall Unit
  | .assign m tenantId planId startDate => do
    let _ ← SubscriptionService.assign m tenantId planId startDate
  | .cancel m subscriptionId reason cancelAtPeriodEnd =>
    SubscriptionService.cancel m subscriptionId reason cancelAtPeriodEnd
  | .reactivate m subscriptionId => SubscriptionService.reactivate m subscriptionId
  | .transitionToPastDue m subscriptionId =>
    SubscriptionService.transitionToPastDue m subscriptionId
  | .transitionToSuspended subscriptionId =>
    SubscriptionService.transitionToSuspended subscriptionId
  | .suspend tenantId => TenantService.suspend tenantId
  | .reactivateTenant tenantId => TenantService.reactivate tenantId

/-! ## What the commands do when they return -/

section

variable {db db' : Db} {u : Unit}

/-- The subscription is written, then its status is copied to the tenant. -/
def Db.billed (db : Db) (subs : Subscriptions) (tenant : TenantRow) (status : SubscriptionStatus)
    (subscriptionId : Uuid) : Db :=
  { db with
    subscriptions := subs
    tenants := db.tenants.put
      { tenant with subscriptionStatus := status, currentSubscriptionId := some subscriptionId } }

theorem getSubscription_bind_eq_ok {α : Type} {id : Uuid} {f : SubscriptionRow → PlatformCall α}
    {a : α} : (getSubscription id >>= f) db = .ok a db' ↔
      ∃ sub, db.subscriptions.get? id = some sub ∧ f sub db = .ok a db' := by
  unfold getSubscription
  rw [bind_eq_ok]
  constructor
  · rintro ⟨sub, db₁, hget, hrest⟩
    rw [get_bind_eq_ok, orRaise_eq_ok] at hget
    obtain ⟨hsub, rfl⟩ := hget
    exact ⟨sub, hsub, hrest⟩
  · rintro ⟨sub, hsub, hrest⟩
    exact ⟨sub, db, by rw [get_bind_eq_ok, orRaise_eq_ok]; exact ⟨hsub, rfl⟩, hrest⟩

theorem getPlan_bind_eq_ok {α : Type} {sub : SubscriptionRow} {f : SubscriptionPlan → PlatformCall α}
    {a : α} : (getPlan sub >>= f) db = .ok a db' ↔
      ∃ plan, db.plans.get? sub.planId = some plan ∧ f plan db = .ok a db' := by
  unfold getPlan
  rw [bind_eq_ok]
  constructor
  · rintro ⟨plan, db₁, hget, hrest⟩
    rw [get_bind_eq_ok, orRaise_eq_ok] at hget
    obtain ⟨hplan, rfl⟩ := hget
    exact ⟨plan, hplan, hrest⟩
  · rintro ⟨plan, hplan, hrest⟩
    exact ⟨plan, db, by rw [get_bind_eq_ok, orRaise_eq_ok]; exact ⟨hplan, rfl⟩, hrest⟩

theorem write_sync_eq_ok {row : SubscriptionRow} {tenantId : Uuid} {status : SubscriptionStatus}
    {id : Uuid} :
    (do writeSubscription row; SubscriptionService.syncTenantStatus tenantId status id) db
        = .ok u db' ↔
      ∃ subs tenant, db.subscriptions.put? row = some subs ∧
        db.tenants.get? tenantId = some tenant ∧ db' = db.billed subs tenant status id := by
  unfold SubscriptionService.syncTenantStatus writeTenant
  rw [bind_eq_ok]
  constructor
  · rintro ⟨_, db₁, hwrite, hsync⟩
    obtain ⟨subs, hput, rfl⟩ := writeSubscription_eq_ok.mp hwrite
    rw [get_bind_eq_ok, orRaise_bind_eq_ok] at hsync
    obtain ⟨tenant, htenant, hmodify⟩ := hsync
    exact ⟨subs, tenant, hput, htenant, modify_eq_ok.mp hmodify⟩
  · rintro ⟨subs, tenant, hput, htenant, rfl⟩
    refine ⟨(), _, writeSubscription_eq_ok.mpr ⟨subs, hput, rfl⟩, ?_⟩
    rw [get_bind_eq_ok, orRaise_bind_eq_ok]
    exact ⟨tenant, htenant, modify_eq_ok.mpr rfl⟩

theorem cancel_now_eq_ok {m : Moment} {id : Uuid} {reason : String} :
    SubscriptionService.cancel m id reason false db = .ok u db' ↔
      ∃ sub subs tenant, db.subscriptions.get? id = some sub ∧ sub.status ≠ .cancelled ∧
        db.subscriptions.put? { sub with
          cancelledAt := some m.now, cancellationReason := some reason, status := .cancelled }
            = some subs ∧
        db.tenants.get? sub.tenantId = some tenant ∧
        db' = db.billed subs tenant .cancelled sub.id := by
  unfold SubscriptionService.cancel
  simp only [getSubscription_bind_eq_ok, require_bind_eq_ok, Bool.false_eq_true, if_false,
    write_sync_eq_ok, exists_and_left]

theorem cancel_later_eq_ok {m : Moment} {id : Uuid} {reason : String} :
    SubscriptionService.cancel m id reason true db = .ok u db' ↔
      ∃ sub subs, db.subscriptions.get? id = some sub ∧ sub.status ≠ .cancelled ∧
        db.subscriptions.put? { sub with
          cancelledAt := some m.now, cancellationReason := some reason } = some subs ∧
        db' = { db with subscriptions := subs } := by
  unfold SubscriptionService.cancel
  simp only [getSubscription_bind_eq_ok, require_bind_eq_ok, if_true, writeSubscription_eq_ok,
    exists_and_left]

theorem reactivate_eq_ok {m : Moment} {id : Uuid} :
    SubscriptionService.reactivate m id db = .ok u db' ↔
      ∃ sub plan periodEnd subs tenant, db.subscriptions.get? id = some sub ∧
        (sub.status = .pastDue ∨ sub.status = .suspended) ∧
        db.plans.get? sub.planId = some plan ∧
        m.today.addDays? plan.billingPeriod.days = some periodEnd ∧
        db.subscriptions.put? { sub with
          status := .active, currentPeriodStart := m.today, currentPeriodEnd := periodEnd,
          nextBillingDate := some periodEnd, gracePeriodEndsAt := none } = some subs ∧
        db.tenants.get? sub.tenantId = some tenant ∧
        db' = db.billed subs tenant .active sub.id := by
  unfold SubscriptionService.reactivate
  simp only [getSubscription_bind_eq_ok, getPlan_bind_eq_ok, require_bind_eq_ok, orRaise_bind_eq_ok,
    write_sync_eq_ok, exists_and_left]

theorem transitionToPastDue_eq_ok {m : Moment} {id : Uuid} :
    SubscriptionService.transitionToPastDue m id db = .ok u db' ↔
      ∃ sub plan graceEnd subs tenant, db.subscriptions.get? id = some sub ∧
        (sub.status = .active ∨ sub.status = .trialing) ∧
        db.plans.get? sub.planId = some plan ∧
        m.today.addDays? plan.gracePeriodDays = some graceEnd ∧
        db.subscriptions.put? { sub with
          status := .pastDue, gracePeriodEndsAt := some graceEnd } = some subs ∧
        db.tenants.get? sub.tenantId = some tenant ∧
        db' = db.billed subs tenant .pastDue sub.id := by
  unfold SubscriptionService.transitionToPastDue
  simp only [getSubscription_bind_eq_ok, getPlan_bind_eq_ok, require_bind_eq_ok, orRaise_bind_eq_ok,
    write_sync_eq_ok, exists_and_left]

theorem transitionToSuspended_eq_ok {id : Uuid} :
    SubscriptionService.transitionToSuspended id db = .ok u db' ↔
      ∃ sub subs tenant, db.subscriptions.get? id = some sub ∧ sub.status = .pastDue ∧
        db.subscriptions.put? { sub with status := .suspended } = some subs ∧
        db.tenants.get? sub.tenantId = some tenant ∧
        db' = db.billed subs tenant .suspended sub.id := by
  unfold SubscriptionService.transitionToSuspended
  simp only [getSubscription_bind_eq_ok, require_bind_eq_ok, write_sync_eq_ok, exists_and_left]

theorem insertSubscription_eq_ok {tenantId id : Uuid} {f : Uuid → SubscriptionRow}
    {hf : ∀ id, (f id).id = id} :
    insertSubscription tenantId f hf db = .ok id db' ↔
      ∃ subs, db.subscriptions.insert? f hf = some subs ∧ id = db.subscriptions.fresh ∧
        db' = { db with subscriptions := subs } := by
  unfold insertSubscription
  cases db.subscriptions.insert? f hf with
  | none => simp
  | some subs => simp [eq_comm]

theorem assign_eq_ok {m : Moment} {tenantId planId id : Uuid} {startDate : Option Date} :
    SubscriptionService.assign m tenantId planId startDate db = .ok id db' ↔
      ∃ tenant plan periodEnd subs, db.tenants.get? tenantId = some tenant ∧
        db.plans.get? planId = some plan ∧ plan.isActive = true ∧
        db.subscriptions.liveFor tenantId = none ∧
        (startDate.getD m.today).addDays? plan.firstPeriod.2 = some periodEnd ∧
        db.subscriptions.insert?
          (newSubscription m tenantId plan (startDate.getD m.today) periodEnd) (fun _ => rfl)
            = some subs ∧
        id = db.subscriptions.fresh ∧ db' = db.billed subs tenant plan.firstPeriod.1 id := by
  unfold SubscriptionService.assign writeTenant
  simp only [get_bind_eq_ok, orRaise_bind_eq_ok, require_bind_eq_ok]
  constructor
  · rintro ⟨tenant, htenant, plan, hplan, hactive, hrest⟩
    cases hlive : db.subscriptions.liveFor tenantId with
    | some existing => simp [hlive] at hrest
    | none =>
      simp only [hlive, orRaise_bind_eq_ok] at hrest
      obtain ⟨periodEnd, hend, hrest⟩ := hrest
      obtain ⟨id', db₁, hinsert, hrest⟩ := bind_eq_ok.mp hrest
      obtain ⟨subs, hsubs, rfl, rfl⟩ := insertSubscription_eq_ok.mp hinsert
      rw [modify_bind_eq_ok, pure_eq_ok] at hrest
      obtain ⟨rfl, rfl⟩ := hrest
      exact ⟨tenant, plan, periodEnd, subs, htenant, hplan, hactive, rfl, hend, hsubs, rfl, rfl⟩
  · rintro ⟨tenant, plan, periodEnd, subs, htenant, hplan, hactive, hlive, hend, hsubs, rfl, rfl⟩
    refine ⟨tenant, htenant, plan, hplan, hactive, ?_⟩
    simp only [hlive, orRaise_bind_eq_ok]
    refine ⟨periodEnd, hend, bind_eq_ok.mpr ⟨_, _, insertSubscription_eq_ok.mpr
      ⟨subs, hsubs, rfl, rfl⟩, ?_⟩⟩
    rw [modify_bind_eq_ok, pure_eq_ok]
    exact ⟨rfl, rfl⟩

/-- The tenant after `TenantService.suspend`. -/
def TenantRow.suspended (t : TenantRow) : TenantRow :=
  { t with isActive := false, status := .suspended, subscriptionStatus := .suspended }

theorem suspend_eq_ok {id : Uuid} :
    TenantService.suspend id db = .ok u db' ↔
      ∃ t, db.tenants.get? id = some t ∧
        db' = if t.status = .suspended then db else { db with tenants := db.tenants.put t.suspended }
    := by
  unfold TenantService.suspend writeTenant
  simp only [get_bind_eq_ok, orRaise_bind_eq_ok]
  refine exists_congr fun t => and_congr_right fun _ => ?_
  by_cases h : t.status = .suspended
  · simp [when, h, eq_comm]
  · simp [when, h, eq_comm, TenantRow.suspended]

/-- The tenant after `TenantService.reactivate`. -/
def TenantRow.reactivated (t : TenantRow) (live : Option SubscriptionRow) : TenantRow :=
  { t with
    isActive := true, status := .active,
    subscriptionStatus := (live.map (·.status)).getD .pending,
    currentSubscriptionId := (live.map (some ·.id)).getD t.currentSubscriptionId }

theorem reactivateTenant_eq_ok {id : Uuid} :
    TenantService.reactivate id db = .ok u db' ↔
      ∃ t, db.tenants.get? id = some t ∧ t.status = .suspended ∧
        db' = { db with tenants := db.tenants.put (t.reactivated (db.subscriptions.liveFor id)) }
    := by
  unfold TenantService.reactivate writeTenant
  simp only [get_bind_eq_ok, orRaise_bind_eq_ok, require_bind_eq_ok, modify_eq_ok]
  rfl

end

end SaccoPlatform.Platform
