import SaccoPlatform.Platform.Directory
import SaccoPlatform.Platform.Access

/-!
# Requests, the cache and committed transitions

A tenant request takes several steps: the lookup in Redis, the query after a miss, the `SETEX`, and
the queries of the two gates. Between any two of them other requests run and transitions of the
tenant commit. `is_active` is only tested by the query after a miss; the subscription gate filters
on the same column and lets a request pass when it finds no row.
-/

namespace SaccoPlatform.Platform

open Lib Session

/-! ## The world -/

/-- A cached schema and the time Redis drops it. -/
structure CacheEntry where
  schemaName : String
  expiresAt : Timestamp
deriving DecidableEq

/-- How far a request has come. The rows that the gates saw are kept for the record. -/
inductive Phase where
  | arrived
  | missed
  | queried (schemaName : String)
  | resolved (schemaName : String)
  | passed (schemaName : String) (seen : Option TenantRow)
  | admitted (seen seen' : Option TenantRow) (graceEnd : Option Date) (today : Date)
  | refused (error : HttpError)
deriving DecidableEq

structure InFlight where
  slug : String
  method : String
  phase : Phase
deriving DecidableEq

structure GateWorld where
  db : Db
  cache : String → Option CacheEntry
  clock : Timestamp
  requests : List InFlight

/-- `redis.get`. -/
def GateWorld.cached (w : GateWorld) (slug : String) : Option String :=
  (w.cache slug).bind fun e => if w.clock < e.expiresAt then some e.schemaName else none

/-- `redis.setex(key, 300, schema_name)`. -/
def GateWorld.setex (w : GateWorld) (slug schemaName : String) : GateWorld :=
  { w with cache := Function.update w.cache slug (some ⟨schemaName, w.clock + 300 * 1000000⟩) }

/-- A header that names no slug is refused at once. -/
def Request.start (req : Request) : InFlight :=
  match req.slug with
  | .ok slug => ⟨slug, req.method, .arrived⟩
  | .error e => ⟨"", req.method, .refused e⟩

/-- The next step of a request, on the tables as they are committed now. -/
def InFlight.next (db : Db) (cached : Option String) (today : Date) (r : InFlight) : Phase :=
  match r.phase with
  | .arrived =>
    match cached with
    | some schemaName => .resolved schemaName
    | none => .missed
  | .missed =>
    match querySchema db r.slug with
    | .ok schemaName => .queried schemaName
    | .error e => .refused e
  | .queried schemaName => .resolved schemaName
  | .resolved schemaName =>
    match checkOffboardingGate db r.slug r.method with
    | .ok () => .passed schemaName (db.bySlug r.slug)
    | .error e => .refused e
  | .passed schemaName seen =>
    match checkSubscriptionGate db today r.slug, checkSchema schemaName with
    | .ok (), .ok () =>
      .admitted seen (db.bySlug r.slug) ((db.bySlug r.slug).bind fun t => db.graceEnd t) today
    | .error e, _ => .refused e
    | .ok (), .error e => .refused e
  | phase => phase

/-- What can happen next. -/
inductive GateAction where
  | arrive (req : Request)
  | advance (i : ℕ) (today : Date)
  | bill (op : BillingOp)
  | offboard (op : OffboardingOp)
  | wait (elapsed : ℕ)

/-- The cache after the next step of a request. -/
def GateWorld.store (w : GateWorld) (r : InFlight) : GateWorld :=
  match r.phase with
  | .queried schemaName => w.setex r.slug schemaName
  | _ => w

def InFlight.advance (w : GateWorld) (today : Date) (r : InFlight) : InFlight :=
  { r with phase := r.next w.db (w.cached r.slug) today }

def GateWorld.step (cfg : OffboardingSettings) (w : GateWorld) : GateAction → GateWorld
  | .arrive req => { w with requests := w.requests ++ [req.start] }
  | .advance i today =>
    match w.requests[i]? with
    | none => w
    | some r => { w.store r with requests := w.requests.set i (r.advance w today) }
  | .bill op => { w with db := commit op.perform w.db }
  | .offboard op => { w with db := op.step cfg w.db }
  | .wait elapsed => { w with clock := w.clock + elapsed }

/-- No request yet, and nothing in the cache. -/
def GateWorld.start (db : Db) (clock : Timestamp) : GateWorld := ⟨db, fun _ => none, clock, []⟩

/-! ## Soundness -/

/-- `lifecycle_state` permits the method. -/
def LifecyclePermits (method : String) (t : TenantRow) : Prop :=
  t.lifecycleState = .active ∨ t.lifecycleState = .readOnly ∧ method ∈ readMethods

/-- `subscription_status` permits access. -/
def SubscriptionPermits (today : Date) (graceEnd : Option Date) (t : TenantRow) : Prop :=
  t.subscriptionStatus = .pending ∨ t.subscriptionStatus = .trialing ∨
    t.subscriptionStatus = .active ∨
    t.subscriptionStatus = .pastDue ∧ ∀ d, graceEnd = some d → today ≤ d

/-- If the request was admitted, the tenant was active at both gates, its lifecycle permitted the
method at the first and its subscription permitted access at the second. -/
def InFlight.Sound (r : InFlight) : Prop :=
  ∀ seen seen' graceEnd today, r.phase = .admitted seen seen' graceEnd today →
    ∃ t t', seen = some t ∧ seen' = some t' ∧ t.isActive = true ∧ t'.isActive = true ∧
      LifecyclePermits r.method t ∧ SubscriptionPermits today graceEnd t'

theorem lifecyclePermits_of_gate {method : String} {t : TenantRow}
    (h : offboardingGate method t.lifecycleState = .ok ()) : LifecyclePermits method t := by
  unfold LifecyclePermits
  cases hstate : t.lifecycleState with
  | active => exact .inl rfl
  | readOnly => exact .inr ⟨rfl, offboardingGate_readOnly.mp (hstate ▸ h)⟩
  | cancelled => simp [hstate, offboardingGate] at h
  | archived => simp [hstate, offboardingGate] at h
  | hardDeleted => simp [hstate, offboardingGate] at h

theorem subscriptionPermits_of_gate {today : Date} {graceEnd : Option Date} {t : TenantRow}
    (h : subscriptionGate today graceEnd t.subscriptionStatus = .ok ()) :
    SubscriptionPermits today graceEnd t := by
  unfold SubscriptionPermits
  cases hstatus : t.subscriptionStatus with
  | pending => exact .inl rfl
  | trialing => exact .inr (.inl rfl)
  | active => exact .inr (.inr (.inl rfl))
  | pastDue =>
    rw [hstatus, subscriptionGate] at h
    have hgrace : graceEnd.all (today ≤ ·) = true := by
      by_contra hno
      rw [if_neg hno] at h
      cases h
    refine .inr (.inr (.inr ⟨rfl, ?_⟩))
    rintro d rfl
    simpa using hgrace
  | suspended => simp [hstatus, subscriptionGate] at h
  | cancelled => simp [hstatus, subscriptionGate] at h

/-- The slug belongs to an active tenant. -/
def ActiveSlug (db : Db) (slug : String) : Prop := ∃ t, db.bySlug slug = some t ∧ t.isActive = true

/-- Tenants that are active in `db` are active in `db'`. -/
def KeepsActive (db db' : Db) : Prop :=
  ∀ id t, db.tenants.get? id = some t → t.isActive = true →
    ∃ t', db'.tenants.get? id = some t' ∧ t'.isActive = true

section

variable {db db' : Db}

theorem KeepsActive.refl (db : Db) : KeepsActive db db := fun _ t ht h => ⟨t, ht, h⟩

theorem KeepsActive.trans {db'' : Db} (h : KeepsActive db db') (h' : KeepsActive db' db'') :
    KeepsActive db db'' := by
  intro id t ht hactive
  obtain ⟨t', ht', hactive'⟩ := h id t ht hactive
  exact h' id t' ht' hactive'

/-- Writing back a tenant that stays active. -/
theorem keepsActive_put (t' : TenantRow) (h : ∀ t, db.tenants.get? t'.id = some t →
    t.isActive = true → t'.isActive = true) (htenants : db'.tenants = db.tenants.put t') :
    KeepsActive db db' := by
  intro id t ht hactive
  rw [htenants]
  by_cases hid : t'.id = id
  · subst hid
    exact ⟨t', Keyed.get?_put_self ht rfl, h t ht hactive⟩
  · exact ⟨t, by rw [Keyed.get?_put_of_ne db.tenants hid]; exact ht, hactive⟩

theorem ActiveSlug.keep {slug : String} (h : ActiveSlug db slug) (hdir : db'.directory = db.directory)
    (hkeep : KeepsActive db db') : ActiveSlug db' slug := by
  obtain ⟨t, ht, hactive⟩ := h
  obtain ⟨t₀, ht₀, -, hget₀⟩ := bySlug_of_directory rfl ht
  obtain rfl : t = t₀ := Option.some.inj (ht.symm.trans ht₀)
  obtain ⟨t', ht', -, hget'⟩ := bySlug_of_directory hdir ht
  obtain ⟨t'', hget'', hactive''⟩ := hkeep t.id t hget₀ hactive
  exact ⟨t', ht', Option.some.inj (hget'.symm.trans hget'') ▸ hactive''⟩

theorem keepsActive_billed {subs : Subscriptions} {t : TenantRow} {tenantId : Uuid}
    (ht : db.tenants.get? tenantId = some t) (status : SubscriptionStatus) (id : Uuid) :
    KeepsActive db (db.billed subs t status id) := by
  have hid : t.id = tenantId := Db.id_of_tenant ht
  refine keepsActive_put _ ?_ rfl
  intro t₀ ht₀ hactive
  obtain rfl : t₀ = t := Option.some.inj (ht₀.symm.trans (hid ▸ ht))
  exact hactive

/-- Only `TenantService.suspend` makes an active tenant inactive. -/
theorem keepsActive_billingOp (op : BillingOp) {u : Unit} (h : op.perform db = .ok u db')
    (hop : ∀ id, op ≠ .suspend id) : KeepsActive db db' := by
  cases op with
  | assign m tenantId planId startDate =>
    obtain ⟨id, db₁, hassign, hpure⟩ := bind_eq_ok.mp h
    obtain ⟨-, rfl⟩ := pure_eq_ok.mp hpure
    obtain ⟨t, plan, periodEnd, subs, ht, -, -, -, -, -, -, rfl⟩ := assign_eq_ok.mp hassign
    exact keepsActive_billed ht _ _
  | cancel m id reason atPeriodEnd =>
    cases atPeriodEnd with
    | false =>
      obtain ⟨sub, subs, t, -, -, -, ht, rfl⟩ := cancel_now_eq_ok.mp h
      exact keepsActive_billed ht _ _
    | true =>
      obtain ⟨sub, subs, -, -, -, rfl⟩ := cancel_later_eq_ok.mp h
      exact KeepsActive.refl db
  | reactivate m id =>
    obtain ⟨sub, plan, periodEnd, subs, t, -, -, -, -, -, ht, rfl⟩ := reactivate_eq_ok.mp h
    exact keepsActive_billed ht _ _
  | transitionToPastDue m id =>
    obtain ⟨sub, plan, graceEnd, subs, t, -, -, -, -, -, ht, rfl⟩ := transitionToPastDue_eq_ok.mp h
    exact keepsActive_billed ht _ _
  | transitionToSuspended id =>
    obtain ⟨sub, subs, t, -, -, -, ht, rfl⟩ := transitionToSuspended_eq_ok.mp h
    exact keepsActive_billed ht _ _
  | suspend id => exact absurd rfl (hop id)
  | reactivateTenant id =>
    obtain ⟨t, ht, -, rfl⟩ := reactivateTenant_eq_ok.mp h
    exact keepsActive_put (t.reactivated (db.subscriptions.liveFor id)) (fun _ _ _ => rfl) rfl

theorem keepsActive_offboardingOp (cfg : OffboardingSettings) (op : OffboardingOp) {u : Unit}
    (h : op.perform cfg db = .ok u db') : KeepsActive db db' := by
  obtain ⟨db₁, hframed, -, -, hrest⟩ := offboardingOp_cases cfg op h
  have hfirst : KeepsActive db db₁ := by
    intro id t ht hactive
    obtain ⟨t', ht', hframe⟩ := get?_of_framed hframed ht
    have hsame : t'.frame.isActive = t.frame.isActive :=
      congrArg (fun t : TenantRow => t.isActive) hframe
    exact ⟨t', ht', hsame.trans hactive⟩
  obtain ⟨-, rfl⟩ | ⟨m, id, reason, -, hcancel⟩ := hrest
  · exact hfirst
  · exact hfirst.trans (keepsActive_billingOp (.cancel m id reason false) hcancel nofun)

end

/-! ## Slugs in use -/

/-- The request has read the schema and not yet passed the subscription gate. -/
def InFlight.Resolved (r : InFlight) : Prop :=
  match r.phase with
  | .queried _ | .resolved _ | .passed _ _ => True
  | _ => False

/-- The cache or a request in flight has the schema of the slug. -/
def GateWorld.InUse (w : GateWorld) (slug : String) : Prop :=
  (w.cached slug).isSome ∨ ∃ r ∈ w.requests, r.slug = slug ∧ r.Resolved

/-- An active tenant is suspended only while its slug is not in use. -/
def SuspendsUnused (w : GateWorld) : GateAction → Prop
  | .bill (.suspend id) =>
    ∀ t, w.db.tenants.get? id = some t → t.isActive = true → ¬ w.InUse t.slug
  | _ => True

/-- Slugs in use belong to active tenants, and what the gates let pass they rightly let pass. -/
structure GateWorld.Guarded (w : GateWorld) : Prop where
  inUse : ∀ slug, w.InUse slug → ActiveSlug w.db slug
  passed : ∀ r ∈ w.requests, ∀ schemaName seen, r.phase = .passed schemaName seen →
    ∃ t, seen = some t ∧ t.isActive = true ∧ LifecyclePermits r.method t
  admitted : ∀ r ∈ w.requests, r.Sound

theorem guarded_start (db : Db) (clock : Timestamp) : (GateWorld.start db clock).Guarded where
  inUse := by
    intro slug h
    cases h with
    | inl h => cases h
    | inr h =>
      obtain ⟨r, hr, -⟩ := h
      cases hr
  passed := fun _ hr => absurd hr List.not_mem_nil
  admitted := fun _ hr => absurd hr List.not_mem_nil

section

variable {w : GateWorld}

/-- A commit that leaves the slugs in use active. -/
theorem GateWorld.Guarded.withDb (h : w.Guarded) {db : Db}
    (hdb : ∀ slug, w.InUse slug → ActiveSlug w.db slug → ActiveSlug db slug) :
    GateWorld.Guarded { w with db := db } where
  inUse := fun slug huse => hdb slug huse (h.inUse slug huse)
  passed := h.passed
  admitted := h.admitted

/-- Suspending a tenant leaves the slugs of the others active. -/
theorem activeSlug_suspended {db : Db} {id : Uuid} {t : TenantRow} {slug : String}
    (ht : db.tenants.get? id = some t) (hslug : t.isActive = true → t.slug ≠ slug)
    (h : ActiveSlug db slug) :
    ActiveSlug { db with tenants := db.tenants.put t.suspended } slug := by
  obtain ⟨t', ht', hactive⟩ := h
  have hdir : Db.directory { db with tenants := db.tenants.put t.suspended } = db.directory :=
    directory_put (Keyed.mem_of_get? ht) rfl
  have hof : t'.slug = slug := by simpa using List.find?_some ht'
  obtain ⟨t₀, ht₀, -, hget₀⟩ := bySlug_of_directory rfl ht'
  obtain rfl : t' = t₀ := Option.some.inj (ht'.symm.trans ht₀)
  obtain ⟨t₁, ht₁, -, hget₁⟩ := bySlug_of_directory hdir ht'
  have hne : t.suspended.id ≠ t'.id := by
    intro heq
    have hid : t.id = id := Db.id_of_tenant ht
    have hsame : t = t' := by
      have hid' : id = t'.id := hid.symm.trans heq
      exact Option.some.inj (ht.symm.trans (hid' ▸ hget₀))
    exact hslug (hsame ▸ hactive) (hsame ▸ hof)
  have hkept : (db.tenants.put t.suspended).get? t'.id = some t' := by
    rw [Keyed.get?_put_of_ne db.tenants hne]
    exact hget₀
  exact ⟨t₁, ht₁, Option.some.inj (hkept.symm.trans hget₁) ▸ hactive⟩

theorem guarded_bill (h : w.Guarded) (op : BillingOp) (hok : SuspendsUnused w (.bill op)) :
    GateWorld.Guarded { w with db := commit op.perform w.db } := by
  refine h.withDb ?_
  intro slug huse hactive
  refine commit_keeps (P := fun db : Db => ActiveSlug db slug) hactive ?_
  intro u db' hperform
  by_cases hop : ∃ id, op = .suspend id
  · obtain ⟨id, rfl⟩ := hop
    obtain ⟨t, ht, rfl⟩ := suspend_eq_ok.mp hperform
    split
    · exact hactive
    · refine activeSlug_suspended ht ?_ hactive
      rintro hon rfl
      exact hok t ht hon huse
  · have hother : ∀ id, op ≠ .suspend id := fun id heq => hop ⟨id, heq⟩
    exact hactive.keep (directory_billingOp op hperform) (keepsActive_billingOp op hperform hother)

theorem guarded_offboard (h : w.Guarded) (cfg : OffboardingSettings) (op : OffboardingOp) :
    GateWorld.Guarded { w with db := op.step cfg w.db } := by
  refine h.withDb ?_
  intro slug _ hactive
  refine commit_keeps (P := fun db : Db => ActiveSlug db slug) hactive ?_
  intro u db' hperform
  exact hactive.keep (directory_offboardingOp cfg op hperform)
    (keepsActive_offboardingOp cfg op hperform)

theorem guarded_wait (h : w.Guarded) (elapsed : ℕ) :
    GateWorld.Guarded { w with clock := w.clock + elapsed } where
  inUse := by
    intro slug huse
    apply h.inUse slug
    -- an entry that has not expired later has not expired now
    refine huse.imp_left fun hcached => ?_
    unfold GateWorld.cached at hcached ⊢
    cases hentry : w.cache slug with
    | none => simp [hentry] at hcached
    | some e =>
      have hlater : w.clock + elapsed < e.expiresAt := by simpa [hentry] using hcached
      have hnow : w.clock < e.expiresAt := (le_add_of_nonneg_right (Int.natCast_nonneg _)).trans_lt
        hlater
      simp [hnow]
  passed := h.passed
  admitted := h.admitted

/-- A request that is added or moved on, with nothing new about the others. -/
theorem GateWorld.Guarded.withRequests (h : w.Guarded) {w' : GateWorld} {r : InFlight}
    (hdb : w'.db = w.db)
    (hcached : ∀ slug, (w'.cached slug).isSome → w.InUse slug)
    (hrequests : ∀ r' ∈ w'.requests, r' ∈ w.requests ∨ r' = r)
    (hresolved : r.Resolved → ActiveSlug w.db r.slug)
    (hpassed : ∀ schemaName seen, r.phase = .passed schemaName seen →
      ∃ t, seen = some t ∧ t.isActive = true ∧ LifecyclePermits r.method t)
    (hsound : r.Sound) : w'.Guarded where
  inUse := by
    intro slug huse
    rw [hdb]
    cases huse with
    | inl hsome => exact h.inUse slug (hcached slug hsome)
    | inr hrequest =>
      obtain ⟨r', hr', rfl, hres⟩ := hrequest
      cases hrequests r' hr' with
      | inl hold => exact h.inUse r'.slug (.inr ⟨r', hold, rfl, hres⟩)
      | inr hnew => exact hnew ▸ hresolved (hnew ▸ hres)
  passed := by
    intro r' hr'
    cases hrequests r' hr' with
    | inl hold => exact h.passed r' hold
    | inr hnew => exact hnew ▸ hpassed
  admitted := by
    intro r' hr'
    cases hrequests r' hr' with
    | inl hold => exact h.admitted r' hold
    | inr hnew => exact hnew ▸ hsound

theorem Request.start_phase (req : Request) :
    req.start.phase = .arrived ∨ ∃ e, req.start.phase = .refused e := by
  unfold Request.start
  cases req.slug with
  | ok slug => exact .inl rfl
  | error e => exact .inr ⟨e, rfl⟩

theorem guarded_arrive (h : w.Guarded) (req : Request) :
    GateWorld.Guarded { w with requests := w.requests ++ [req.start] } := by
  have hphase := req.start_phase
  refine h.withRequests (r := req.start) rfl (fun _ hcached => .inl hcached) ?_ ?_ ?_ ?_
  · intro r' hr'
    simpa using hr'
  · intro hres
    unfold InFlight.Resolved at hres
    obtain hph | ⟨e, hph⟩ := hphase <;> simp [hph] at hres
  · intro schemaName seen hpassed
    obtain hph | ⟨e, hph⟩ := hphase <;> simp [hph] at hpassed
  · intro seen seen' graceEnd today hadmitted
    obtain hph | ⟨e, hph⟩ := hphase <;> simp [hph] at hadmitted

variable {r : InFlight} {db : Db} {cached : Option String} {today : Date}

theorem activeSlug_of_querySchema {slug schemaName : String}
    (h : querySchema db slug = .ok schemaName) : ActiveSlug db slug := by
  unfold querySchema at h
  cases hactive : db.activeBySlug slug with
  | none => simp [hactive] at h
  | some t => exact ⟨t, Option.filter_eq_some_iff.mp hactive⟩

/-- A request that has read the schema found it in the cache or found its tenant active. -/
theorem resolved_next (h : InFlight.Resolved { r with phase := r.next db cached today }) :
    r.Resolved ∨ cached.isSome ∨ ActiveSlug db r.slug := by
  unfold InFlight.Resolved at h ⊢
  cases hphase : r.phase with
  | arrived =>
    cases cached with
    | none => simp [InFlight.next, hphase] at h
    | some schemaName => exact .inr (.inl rfl)
  | missed =>
    cases hquery : querySchema db r.slug with
    | error e => simp [InFlight.next, hphase, hquery] at h
    | ok schemaName => exact .inr (.inr (activeSlug_of_querySchema hquery))
  | queried schemaName => exact .inl trivial
  | resolved schemaName => exact .inl trivial
  | passed schemaName seen => exact .inl trivial
  | admitted seen seen' graceEnd day => simp [InFlight.next, hphase] at h
  | refused e => simp [InFlight.next, hphase] at h

theorem next_eq_passed {schemaName : String} {seen : Option TenantRow}
    (h : r.next db cached today = .passed schemaName seen) :
    r.phase = .resolved schemaName ∧ checkOffboardingGate db r.slug r.method = .ok () ∧
      seen = db.bySlug r.slug := by
  unfold InFlight.next at h
  cases hphase : r.phase with
  | arrived =>
    rw [hphase] at h
    cases cached <;> cases h
  | missed =>
    rw [hphase] at h
    cases hquery : querySchema db r.slug <;> simp [hquery] at h
  | queried schemaName => simp [hphase] at h
  | resolved schemaName =>
    cases hgate : checkOffboardingGate db r.slug r.method with
    | error e => simp [hphase, hgate] at h
    | ok u =>
      simp only [hphase, hgate, Phase.passed.injEq] at h
      exact ⟨by rw [h.1], rfl, h.2.symm⟩
  | passed schemaName seen =>
    rw [hphase] at h
    cases hgate : checkSubscriptionGate db today r.slug <;>
      cases hschema : checkSchema schemaName <;> simp [hgate, hschema] at h
  | admitted seen seen' graceEnd day => simp [hphase] at h
  | refused e => simp [hphase] at h

theorem next_eq_admitted {seen seen' : Option TenantRow} {graceEnd : Option Date} {day : Date}
    (h : r.next db cached today = .admitted seen seen' graceEnd day) :
    r.phase = .admitted seen seen' graceEnd day ∨
      ∃ schemaName, r.phase = .passed schemaName seen ∧
        checkSubscriptionGate db today r.slug = .ok () ∧ seen' = db.bySlug r.slug ∧
        graceEnd = (db.bySlug r.slug).bind (fun t => db.graceEnd t) ∧ day = today := by
  unfold InFlight.next at h
  cases hphase : r.phase with
  | arrived =>
    rw [hphase] at h
    cases cached <;> cases h
  | missed =>
    rw [hphase] at h
    cases hquery : querySchema db r.slug <;> simp [hquery] at h
  | queried schemaName => simp [hphase] at h
  | resolved schemaName =>
    rw [hphase] at h
    cases hgate : checkOffboardingGate db r.slug r.method <;> simp [hgate] at h
  | passed schemaName seen =>
    rw [hphase] at h
    cases hgate : checkSubscriptionGate db today r.slug with
    | error e => simp [hgate] at h
    | ok u =>
      cases hschema : checkSchema schemaName with
      | error e => simp [hgate, hschema] at h
      | ok u' =>
        simp only [hgate, hschema, Phase.admitted.injEq] at h
        obtain ⟨rfl, rfl, rfl, rfl⟩ := h
        exact .inr ⟨schemaName, rfl, rfl, rfl, rfl, rfl⟩
  | admitted seen seen' graceEnd day => exact .inl (by simpa [hphase] using h)
  | refused e => simp [hphase] at h

/-- Both gates read the row of an active tenant. -/
theorem gates_of_activeSlug {slug : String} (today : Date) (h : ActiveSlug db slug) :
    ∃ t, db.bySlug slug = some t ∧ t.isActive = true ∧
      (∀ method, checkOffboardingGate db slug method = offboardingGate method t.lifecycleState) ∧
      checkSubscriptionGate db today slug
        = subscriptionGate today (db.graceEnd t) t.subscriptionStatus := by
  obtain ⟨t, ht, hactive⟩ := h
  refine ⟨t, ht, hactive, ?_, ?_⟩
  · intro method
    rw [checkOffboardingGate, ht]
  · rw [checkSubscriptionGate, activeBySlug_eq ht, if_pos hactive]

theorem guarded_advance (h : w.Guarded) {i : ℕ} (hr : w.requests[i]? = some r) (today : Date) :
    GateWorld.Guarded { w.store r with requests := w.requests.set i (r.advance w today) } := by
  have hmem : r ∈ w.requests := List.mem_of_getElem? hr
  -- a request that has read the schema belongs to an active tenant
  have hactive : r.Resolved → ActiveSlug w.db r.slug :=
    fun hres => h.inUse r.slug (.inr ⟨r, hmem, rfl, hres⟩)
  refine h.withRequests (r := r.advance w today) ?_ ?_ ?_ ?_ ?_ ?_
  · unfold GateWorld.store
    cases r.phase <;> rfl
  · intro slug hcached
    cases hphase : r.phase with
    | queried schemaName =>
      by_cases hslug : slug = r.slug
      · refine .inr ⟨r, hmem, hslug.symm, ?_⟩
        rw [InFlight.Resolved, hphase]
        trivial
      · left
        simpa [GateWorld.store, hphase, GateWorld.cached, GateWorld.setex, hslug] using hcached
    | _ =>
      left
      simpa [GateWorld.store, hphase, GateWorld.cached] using hcached
  · intro r' hr'
    exact (List.mem_or_eq_of_mem_set hr')
  · intro hres
    obtain hold | hcached | hqueried := resolved_next hres
    · exact hactive hold
    · exact h.inUse r.slug (.inl hcached)
    · exact hqueried
  · intro schemaName seen hpassed
    obtain ⟨hphase, hgate, rfl⟩ := next_eq_passed hpassed
    have hres : r.Resolved := by
      rw [InFlight.Resolved, hphase]
      trivial
    obtain ⟨t, ht, hon, hoff, -⟩ := gates_of_activeSlug today (hactive hres)
    rw [hoff] at hgate
    exact ⟨t, ht, hon, lifecyclePermits_of_gate hgate⟩
  · intro seen seen' graceEnd day hadmitted
    obtain hold | ⟨schemaName, hphase, hgate, rfl, rfl, hday⟩ := next_eq_admitted hadmitted
    · exact h.admitted r hmem seen seen' graceEnd day hold
    · have hres : r.Resolved := by
        rw [InFlight.Resolved, hphase]
        trivial
      obtain ⟨t, rfl, hon, hlifecycle⟩ := h.passed r hmem schemaName seen hphase
      obtain ⟨t', ht', hon', -, hsub⟩ := gates_of_activeSlug today (hactive hres)
      rw [hsub] at hgate
      refine ⟨t, t', rfl, ht', hon, hon', hlifecycle, ?_⟩
      rw [ht', hday]
      exact subscriptionPermits_of_gate hgate

theorem guarded_step (cfg : OffboardingSettings) (w : GateWorld) (a : GateAction) (h : w.Guarded)
    (hok : SuspendsUnused w a) : (w.step cfg a).Guarded := by
  cases a with
  | arrive req => exact guarded_arrive h req
  | advance i today =>
    cases hr : w.requests[i]? with
    | none => simpa [GateWorld.step, hr] using h
    | some r => simpa [GateWorld.step, hr] using guarded_advance h hr today
  | bill op => exact guarded_bill h op hok
  | offboard op => exact guarded_offboard h cfg op
  | wait elapsed => exact guarded_wait h elapsed

end

/-! ## Admitted requests -/

/-- When no active tenant is suspended while its slug is in use, every request that is admitted is
for a tenant that is active and that the gates permit. -/
theorem admitted_requests_sound (cfg : OffboardingSettings) (db : Db) (clock : Timestamp)
    (actions : List GateAction)
    (hok : Along (GateWorld.step cfg) SuspendsUnused (GateWorld.start db clock) actions) :
    ∀ r ∈ (run (GateWorld.step cfg) (GateWorld.start db clock) actions).requests, r.Sound := by
  have h : GateWorld.Guarded (run (GateWorld.step cfg) (GateWorld.start db clock) actions) :=
    run_invariant (guarded_step cfg) (guarded_start db clock) hok
  exact h.admitted

/-- A request is served from the tables; the tenant is suspended after the entry has expired; the
next request finds no tenant. -/
def suspendedAfterExpiry : List GateAction :=
  [.arrive umojaGet, .advance 0 dayOne, .advance 0 dayOne, .advance 0 dayOne, .advance 0 dayOne,
    .advance 0 dayOne, .wait 300000000, .bill (.suspend 1), .arrive umojaGet, .advance 1 dayOne,
    .advance 1 dayOne]

/-- When the tenant is suspended, the first request has been admitted. -/
theorem requests_suspendedAfterExpiry :
    (run (GateWorld.step defaultSettings) (GateWorld.start freshDb 0)
      (suspendedAfterExpiry.take 7)).requests
      = [⟨"umoja", "GET", .admitted (some freshTenant) (some freshTenant) none dayOne⟩] := by
  decide +kernel

theorem admitted_requests_sound_umoja :
    Along (GateWorld.step defaultSettings) SuspendsUnused (GateWorld.start freshDb 0)
        suspendedAfterExpiry ∧
      ∀ r ∈ (run (GateWorld.step defaultSettings) (GateWorld.start freshDb 0)
        suspendedAfterExpiry).requests, r.Sound := by
  have hunused : Along (GateWorld.step defaultSettings) SuspendsUnused (GateWorld.start freshDb 0)
      suspendedAfterExpiry := by
    refine ⟨trivial, trivial, trivial, trivial, trivial, trivial, trivial, ?_, trivial, trivial,
      trivial, trivial⟩
    intro t ht _ huse
    obtain rfl : t = freshTenant := by
      have hrow : some t = some freshTenant := ht.symm.trans (by decide +kernel)
      exact Option.some.inj hrow
    cases huse with
    | inl hcached => exact absurd hcached (by decide +kernel)
    | inr hrequest =>
      obtain ⟨r, hr, -, hres⟩ := hrequest
      have hfirst : r ∈ (run (GateWorld.step defaultSettings) (GateWorld.start freshDb 0)
          (suspendedAfterExpiry.take 7)).requests := hr
      rw [requests_suspendedAfterExpiry, List.mem_singleton] at hfirst
      rw [hfirst] at hres
      exact hres
  exact ⟨hunused, admitted_requests_sound defaultSettings freshDb 0 suspendedAfterExpiry hunused⟩

/-- The tenant is suspended while its schema is cached, and the next request is admitted. -/
def suspendedWhileCached : List GateAction :=
  [.arrive umojaGet, .advance 0 dayOne, .advance 0 dayOne, .advance 0 dayOne,
    .bill (.suspend 1), .arrive umojaGet, .advance 1 dayOne, .advance 1 dayOne, .advance 1 dayOne]

theorem suspended_tenant_admitted :
    (run (GateWorld.step defaultSettings) (GateWorld.start freshDb 0)
        suspendedWhileCached).requests[1]?
      = some ⟨"umoja", "GET",
        .admitted (some freshTenant.suspended) (some freshTenant.suspended) none dayOne⟩ ∧
    ¬ ∀ r ∈ (run (GateWorld.step defaultSettings) (GateWorld.start freshDb 0)
        suspendedWhileCached).requests, r.Sound := by
  have hadmitted : (run (GateWorld.step defaultSettings) (GateWorld.start freshDb 0)
      suspendedWhileCached).requests[1]?
      = some ⟨"umoja", "GET",
        .admitted (some freshTenant.suspended) (some freshTenant.suspended) none dayOne⟩ := by
    decide +kernel
  refine ⟨hadmitted, fun hsound => ?_⟩
  obtain ⟨t, t', hseen, -, hactive, -⟩ :=
    hsound _ (List.mem_of_getElem? hadmitted) _ _ _ _ rfl
  rw [← Option.some.inj hseen] at hactive
  cases hactive

end SaccoPlatform.Platform
