import SaccoPlatform.Platform.Offboarding

/-!
# The gate of a tenant request

`get_tenant_session` of `app/core/db.py`: the slug of the request is resolved to a schema through
Redis, then the offboarding gate and the subscription gate read the tenant again, each by a query of
its own.
-/

namespace SaccoPlatform.Platform

open Lib Session

/-- `fastapi.HTTPException`. -/
structure HttpError where
  statusCode : ℕ
  detail : String
deriving DecidableEq

/-- What the gate reads of a request: the tenant header and the method. -/
structure Request where
  tenantHeader : Option String
  method : String
deriving DecidableEq

/-- `[...]{1,40}$`: the pattern also matches before a final newline. -/
def matchesUpTo40 (p : Char → Bool) (chars : List Char) : Bool :=
  let body := if chars.getLast? = some '\n' then chars.dropLast else chars
  body.all p && 1 ≤ body.length && body.length ≤ 40

/-- `_SLUG_RE`. -/
def slugRe (slug : String) : Bool :=
  matchesUpTo40 (fun c => c.isLower || c.isDigit || c = '-') slug.toList

/-- `_SCHEMA_RE`. -/
def schemaRe (schemaName : String) : Bool :=
  "tenant_".toList.isPrefixOf schemaName.toList &&
    matchesUpTo40 (fun c => c.isLower || c.isDigit || c = '_') (schemaName.toList.drop 7)

/-- `_READ_METHODS`. -/
def readMethods : List String := ["GET", "HEAD", "OPTIONS"]

/-- The row of a slug. -/
def Db.bySlug (db : Db) (slug : String) : Option TenantRow :=
  db.tenants.rows.find? fun t => t.slug = slug

/-- The row of a slug, `AND is_active = true`. Slugs are unique. -/
def Db.activeBySlug (db : Db) (slug : String) : Option TenantRow :=
  (db.bySlug slug).filter (·.isActive)

theorem activeBySlug_eq {db : Db} {slug : String} {t : TenantRow} (ht : db.bySlug slug = some t) :
    db.activeBySlug slug = if t.isActive = true then some t else none := by
  rw [Db.activeBySlug, ht]
  rfl

/-- The query of `_resolve_tenant_schema` after a cache miss. -/
def querySchema (db : Db) (slug : String) : Except HttpError String :=
  match db.activeBySlug slug with
  | some t => .ok t.schemaName
  | none => .error ⟨404, s!"Tenant '{slug}' not found"⟩

/-- `_resolve_tenant_schema`, where the cache holds `cached` for the slug. -/
def resolveTenantSchema (db : Db) (cached : Option String) (slug : String) :
    Except HttpError String :=
  match cached with
  | some schemaName => .ok schemaName
  | none => querySchema db slug

/-- What the offboarding gate makes of a state. -/
def offboardingGate (method : String) : LifecycleState → Except HttpError Unit
  | .active => .ok ()
  | .readOnly =>
    if method ∈ readMethods then .ok () else .error ⟨403, "Tenant is read-only (offboarding)."⟩
  | .cancelled | .archived | .hardDeleted => .error ⟨403, "Tenant has been offboarded."⟩

/-- `_check_offboarding_gate`. -/
def checkOffboardingGate (db : Db) (slug method : String) : Except HttpError Unit :=
  match db.bySlug slug with
  | none => .ok ()
  | some t => offboardingGate method t.lifecycleState

/-- `grace_period_ends_at` of the current subscription, by a left join. -/
def Db.graceEnd (db : Db) (t : TenantRow) : Option Date :=
  t.currentSubscriptionId.bind fun id =>
    (db.subscriptions.get? id).bind fun sub => sub.gracePeriodEndsAt

/-- What the subscription gate makes of a status. -/
def subscriptionGate (today : Date) (graceEnd : Option Date) :
    SubscriptionStatus → Except HttpError Unit
  | .pending | .trialing | .active => .ok ()
  | .pastDue =>
    if graceEnd.all (today ≤ ·) then .ok ()
    else .error ⟨402, "Subscription past due and grace period has expired. " ++
      "Please settle the outstanding invoice to restore access."⟩
  | .suspended => .error ⟨403, "Subscription status is 'suspended'; access denied."⟩
  | .cancelled => .error ⟨403, "Subscription status is 'cancelled'; access denied."⟩

/-- `_check_subscription_gate`: no row is no objection. -/
def checkSubscriptionGate (db : Db) (today : Date) (slug : String) : Except HttpError Unit :=
  match db.activeBySlug slug with
  | none => .ok ()
  | some t => subscriptionGate today (db.graceEnd t) t.subscriptionStatus

/-- The slug of the tenant header. -/
def Request.slug (req : Request) : Except HttpError String :=
  match req.tenantHeader with
  | none => .error ⟨400, "Missing required header: X-Tenant-Slug"⟩
  | some slug =>
    if slug = "" then .error ⟨400, "Missing required header: X-Tenant-Slug"⟩
    else if slugRe slug then .ok slug
    else .error ⟨400, "Invalid tenant slug: must match ^[a-z0-9-]\x7b1,40\x7d$"⟩

/-- The schema name is checked once more before it is interpolated. -/
def checkSchema (schemaName : String) : Except HttpError Unit :=
  if schemaRe schemaName then .ok () else .error ⟨500, "Internal configuration error"⟩

/-- `get_tenant_session` up to the `SET LOCAL`, with nothing else running: the schema of the session
or the error of the response. -/
def getTenantSession (db : Db) (cached : Option String) (today : Date) (req : Request) :
    Except HttpError String := do
  let slug ← req.slug
  let schemaName ← resolveTenantSchema db cached slug
  checkOffboardingGate db slug req.method
  checkSubscriptionGate db today slug
  checkSchema schemaName
  pure schemaName

end SaccoPlatform.Platform
