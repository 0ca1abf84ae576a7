import SaccoPlatform.Platform.Directory
import SaccoPlatform.Platform.Retention

/-!
# Access of an offboarded tenant

Two gates decide on a request, and two state machines drive them. `OffboardingService.cancel` moves
both, the sweeps and `restore` only the lifecycle: a subscription that was cancelled with its tenant
stays cancelled, and the tenant gets no access back before a plan is assigned to it.
-/

namespace SaccoPlatform.Platform

open Lib Session

/-! ## What the gates admit -/

/-- `get_tenant_session` opens a session for the request. -/
def Admits (db : Db) (cached : Option String) (today : Date) (req : Request) : Prop :=
  ∃ schemaName, getTenantSession db cached today req = .ok schemaName

instance (db : Db) (cached : Option String) (today : Date) (req : Request) :
    Decidable (Admits db cached today req) :=
  match h : getTenantSession db cached today req with
  | .ok schemaName => .isTrue ⟨schemaName, h⟩
  | .error _ => .isFalse fun ⟨_, h'⟩ => nomatch h.symm.trans h'

section

variable {db : Db} {cached : Option String} {today : Date} {req : Request} {slug : String}
  {t : TenantRow}

/-- The name comes from the cache, whatever the flags say by now, or from an active tenant. -/
theorem resolveTenantSchema_eq_ok {schemaName : String} (ht : db.bySlug slug = some t)
    (hcached : ∀ schemaName, cached = some schemaName → schemaName = t.schemaName) :
    resolveTenantSchema db cached slug = .ok schemaName ↔
      schemaName = t.schemaName ∧ (cached.isSome ∨ t.isActive = true) := by
  unfold resolveTenantSchema querySchema
  cases cached with
  | some cachedName =>
    rw [hcached cachedName rfl]
    exact ⟨fun h => ⟨(Except.ok.inj h).symm, .inl rfl⟩, fun h => by rw [h.1]⟩
  | none =>
    rw [activeBySlug_eq ht]
    by_cases hactive : t.isActive = true
    · rw [if_pos hactive]
      exact ⟨fun h => ⟨(Except.ok.inj h).symm, .inr hactive⟩, fun h => by rw [h.1]⟩
    · rw [if_neg hactive]
      simp [hactive]

/-- The gate finds active tenants only, so it passes the others. -/
theorem checkSubscriptionGate_eq_ok (ht : db.bySlug slug = some t) :
    checkSubscriptionGate db today slug = .ok () ↔
      (t.isActive = true →
        subscriptionGate today (db.graceEnd t) t.subscriptionStatus = .ok ()) := by
  unfold checkSubscriptionGate
  rw [activeBySlug_eq ht]
  by_cases hactive : t.isActive = true <;> simp [hactive]

/-- What decides about a request for a tenant whose schema is well named. -/
theorem admits_iff (hreq : req.slug = .ok slug) (ht : db.bySlug slug = some t)
    (hcached : ∀ schemaName, cached = some schemaName → schemaName = t.schemaName)
    (hschema : schemaRe t.schemaName = true) :
    Admits db cached today req ↔
      (cached.isSome ∨ t.isActive = true) ∧ offboardingGate req.method t.lifecycleState = .ok () ∧
        (t.isActive = true → subscriptionGate today (db.graceEnd t) t.subscriptionStatus = .ok ())
    := by
  have hoffboarding : checkOffboardingGate db slug req.method
      = offboardingGate req.method t.lifecycleState := by
    rw [checkOffboardingGate, ht]
  unfold Admits getTenantSession
  constructor
  · rintro ⟨schemaName, h⟩
    -- peel the checks off in the order of the source
    obtain ⟨slug', hslug', h⟩ := except_bind_eq_ok.mp h
    obtain rfl : slug' = slug := Except.ok.inj (hslug'.symm.trans hreq)
    obtain ⟨schemaName', hname, h⟩ := except_bind_eq_ok.mp h
    obtain ⟨_, hgate, h⟩ := except_bind_eq_ok.mp h
    obtain ⟨_, hstatus, -⟩ := except_bind_eq_ok.mp h
    exact ⟨((resolveTenantSchema_eq_ok ht hcached).mp hname).2, hoffboarding ▸ hgate,
      (checkSubscriptionGate_eq_ok ht).mp hstatus⟩
  · rintro ⟨hresolvable, hgate, hstatus⟩
    have hname := (resolveTenantSchema_eq_ok ht hcached).mpr ⟨rfl, hresolvable⟩
    have hcheck : checkSchema t.schemaName = .ok () := if_pos hschema
    refine ⟨t.schemaName, ?_⟩
    rw [hreq]
    show (resolveTenantSchema db cached slug >>= _) = _
    rw [hname]
    show (checkOffboardingGate db slug req.method >>= _) = _
    rw [hoffboarding, hgate]
    show (checkSubscriptionGate db today slug >>= _) = _
    rw [(checkSubscriptionGate_eq_ok ht).mpr hstatus]
    show (checkSchema t.schemaName >>= _) = _
    rw [hcheck]
    rfl

theorem subscriptionGate_none {status : SubscriptionStatus} :
    subscriptionGate today none status = .ok () ↔ status ≠ .suspended ∧ status ≠ .cancelled := by
  cases status <;> simp [subscriptionGate]

theorem offboardingGate_readOnly {method : String} :
    offboardingGate method .readOnly = .ok () ↔ method ∈ readMethods := by
  unfold offboardingGate
  by_cases h : method ∈ readMethods <;> simp [h]

end

/-! ## What offboarding leaves of a tenant's access -/

/-- The columns besides the lifecycle that the gates read. -/
def TenantRow.access (t : TenantRow) : Bool × SubscriptionStatus × Option Uuid :=
  (t.isActive, t.subscriptionStatus, t.currentSubscriptionId)

theorem access_enter (t : TenantRow) (toState : LifecycleState) (clock : Timestamp) :
    (t.enter toState clock).access = t.access := by
  cases toState <;> rfl

/-- An operation on this tenant, or on all of them. -/
def OffboardingOp.Concerns (id : Uuid) : OffboardingOp → Prop
  | .cancel _ tenantId _ _ => tenantId = id
  | .restore _ tenantId _ => tenantId = id
  | .extendRetention tenantId _ _ => tenantId = id
  | _ => True

/-- The tenant has no subscription that could still be cancelled. -/
def Settled (db : Db) (t : TenantRow) : Prop :=
  ∀ id, t.currentSubscriptionId = some id →
    ∀ sub, db.subscriptions.get? id = some sub → sub.status = .cancelled

/-- `db'` has the subscriptions of `db` and gives the tenant the access that `t` has. -/
def AccessKept (db : Db) (t : TenantRow) (id : Uuid) (db' : Db) : Prop :=
  ∃ t', db'.tenants.get? id = some t' ∧ t'.access = t.access ∧ db'.subscriptions = db.subscriptions

section

variable {db : Db} {id : Uuid} {t : TenantRow}

/-- Once it is settled, offboarding leaves a tenant's access and the subscriptions alone. -/
theorem access_step (cfg : OffboardingSettings) (ht : db.tenants.get? id = some t)
    (hsettled : Settled db t) {op : OffboardingOp} (hop : op.Concerns id) :
    AccessKept db t id (op.step cfg db) := by
  have hid : t.id = id := Db.id_of_tenant ht
  apply commit_keeps (P := AccessKept db t id) ⟨t, ht, rfl, rfl⟩
  intro u db' hok
  have hsweep : ∀ due toState clock, OffboardingService.sweep due toState clock db = .ok u db' →
      AccessKept db t id db' := by
    intro due toState clock hsweep
    rw [sweep_eq] at hsweep
    cases hsweep
    refine ⟨_, by rw [tenants_swept, ht, Option.map_some], ?_, rfl⟩
    split
    · exact access_enter t toState _
    · rfl
  cases op with
  | sweepCancelledToReadOnly now clock => exact hsweep _ _ clock hok
  | sweepReadOnlyToArchived now clock => exact hsweep _ _ clock hok
  | sweepArchivedToHardDeleted now clock => exact hsweep _ _ clock hok
  | extendRetention tenantId actorId holdUntil =>
    obtain rfl : tenantId = id := hop
    obtain ⟨t', ht', -, rfl⟩ := extendRetention_eq_ok.mp hok
    obtain rfl : t' = t := Option.some.inj (ht'.symm.trans ht)
    exact ⟨_, Keyed.get?_put_self ht hid, rfl, rfl⟩
  | restore m tenantId actorId =>
    obtain rfl : tenantId = id := hop
    obtain ⟨t', ht', -, -, -, rfl⟩ := restore_eq_ok.mp hok
    obtain rfl : t' = t := Option.some.inj (ht'.symm.trans ht)
    have hentered : (db.tenants.put (t'.enter .active m.now)).get? tenantId
        = some (t'.enter .active m.now) := Keyed.get?_put_self ht hid
    exact ⟨t'.restored, Keyed.get?_put_self hentered hid, rfl, rfl⟩
  | cancel m tenantId actorId reason =>
    obtain rfl : tenantId = id := hop
    obtain ⟨t', ht', -, -, hbill⟩ := cancel_eq_ok.mp hok
    obtain rfl : t' = t := Option.some.inj (ht'.symm.trans ht)
    cases hcurrent : t'.currentSubscriptionId with
    | none =>
      rw [hcurrent] at hbill
      cases hbill
      exact ⟨_, Keyed.get?_put_self ht hid, rfl, rfl⟩
    | some subscriptionId =>
      -- the subscription is already cancelled, and cancelling it again raises
      rw [hcurrent] at hbill
      obtain ⟨sub, subs, tenant, hsub, hne, -⟩ := cancel_now_eq_ok.mp hbill
      exact absurd (hsettled subscriptionId hcurrent sub hsub) hne

theorem access_run (cfg : OffboardingSettings) (ht : db.tenants.get? id = some t)
    (hsettled : Settled db t) {ops : List OffboardingOp} (hops : ∀ op ∈ ops, op.Concerns id) :
    AccessKept db t id (run (OffboardingOp.step cfg) db ops) := by
  induction ops generalizing db t with
  | nil => exact ⟨t, ht, rfl, rfl⟩
  | cons op ops ih =>
    obtain ⟨t₁, ht₁, haccess₁, hsubs₁⟩ :=
      access_step cfg ht hsettled (hops op List.mem_cons_self)
    have hcurrent : t₁.currentSubscriptionId = t.currentSubscriptionId :=
      congrArg (fun a => a.2.2) haccess₁
    have hsettled₁ : Settled (op.step cfg db) t₁ := by
      unfold Settled
      rw [hcurrent, hsubs₁]
      exact hsettled
    obtain ⟨t₂, ht₂, haccess₂, hsubs₂⟩ :=
      ih ht₁ hsettled₁ fun op hop => hops op (List.mem_cons_of_mem _ hop)
    exact ⟨t₂, ht₂, haccess₂.trans haccess₁, hsubs₂.trans hsubs₁⟩

/-- What `cancel` leaves of a tenant without a subscription. -/
theorem cancel_without_subscription {db₁ : Db} {m : Moment} {actorId : Uuid} {reason : String}
    {u : Unit} (ht : db.tenants.get? id = some t) (hnone : t.currentSubscriptionId = none)
    (hcancel : OffboardingService.cancel m id actorId reason db = .ok u db₁) :
    db₁.tenants.get? id = some (t.enter .cancelled m.now) ∧
      db₁.subscriptions = db.subscriptions := by
  obtain ⟨t', ht', -, -, hbill⟩ := cancel_eq_ok.mp hcancel
  obtain rfl : t' = t := Option.some.inj (ht'.symm.trans ht)
  have hid : t'.id = id := Db.id_of_tenant ht
  rw [hnone] at hbill
  cases hbill
  exact ⟨Keyed.get?_put_self ht hid, rfl⟩

/-- What `cancel` leaves of a tenant with a subscription of its own. -/
theorem cancel_with_subscription {db₁ : Db} {m : Moment} {actorId subscriptionId : Uuid}
    {reason : String} {u : Unit} (ht : db.tenants.get? id = some t)
    (hcurrent : t.currentSubscriptionId = some subscriptionId)
    (hown : ∀ sub, db.subscriptions.get? subscriptionId = some sub → sub.tenantId = id)
    (hcancel : OffboardingService.cancel m id actorId reason db = .ok u db₁) :
    ∃ t₁, db₁.tenants.get? id = some t₁ ∧
      t₁.access = (t.isActive, .cancelled, some subscriptionId) ∧ Settled db₁ t₁ := by
  obtain ⟨t', ht', -, -, hbill⟩ := cancel_eq_ok.mp hcancel
  obtain rfl : t' = t := Option.some.inj (ht'.symm.trans ht)
  have hid : t'.id = id := Db.id_of_tenant ht
  rw [hcurrent] at hbill
  obtain ⟨sub, subs, tenant, hsub, -, hput, htenant, rfl⟩ := cancel_now_eq_ok.mp hbill
  have hsub' : db.subscriptions.get? subscriptionId = some sub := hsub
  have hsubId : sub.id = subscriptionId := Db.id_of_subscription hsub'
  rw [hown sub hsub'] at htenant
  have hentered : (db.tenants.put (t'.enter .cancelled m.now)).get? id
      = some (t'.enter .cancelled m.now) := Keyed.get?_put_self ht hid
  obtain rfl : t'.enter .cancelled m.now = tenant := Option.some.inj (hentered.symm.trans htenant)
  refine ⟨_, Keyed.get?_put_self hentered hid, ?_, ?_⟩
  · rw [hsubId]
    rfl
  · intro s hs sub' hsub''
    obtain rfl : sub.id = s := Option.some.inj hs
    have hwritten : subs.get? sub.id = some { sub with
        cancelledAt := some m.now
        cancellationReason := some s!"Tenant offboarding: {reason}"
        status := .cancelled } := by
      rw [Subscriptions.toKeyed_of_put? hput]
      exact Keyed.get?_put_self (hsubId ▸ hsub') rfl
    rw [Option.some.inj (hsub''.symm.trans hwritten)]

theorem directory_run (cfg : OffboardingSettings) (db : Db) (ops : List OffboardingOp) :
    (run (OffboardingOp.step cfg) db ops).directory = db.directory := by
  have hstep : ∀ (db' : Db) op, db'.directory = db.directory →
      (OffboardingOp.step cfg db' op).directory = db.directory := by
    intro db' op h
    apply commit_keeps (P := fun db' : Db => db'.directory = db.directory) h
    intro u db'' hok
    exact (directory_offboardingOp cfg op hok).trans h
  exact run_invariant_of_step hstep ops rfl

theorem stateOf_of_get? {db : Db} {id : Uuid} {t : TenantRow} (ht : db.tenants.get? id = some t) :
    db.stateOf id = some t.lifecycleState := by
  rw [Db.stateOf, Db.lifecycle?, ht]
  rfl

end

/-- After a tenant was cancelled, through any sweeps and restores: while it is `read_only` no
request but a read is admitted, and every read is if the tenant has no subscription and was not shut
out before. Once it is `active` again, a tenant without a subscription has the access it had (one that
is not active, through the same cached entry); where a subscription was cancelled with an active
tenant, the subscription gate refuses every request. -/
theorem offboarding_access (cfg : OffboardingSettings) {db db₁ db' : Db} {slug : String}
    {t : TenantRow} (ht : db.bySlug slug = some t) (hschema : schemaRe t.schemaName = true)
    {m : Moment} {actorId : Uuid} {reason : String} {u : Unit}
    (hcancel : OffboardingService.cancel m t.id actorId reason db = .ok u db₁)
    {ops : List OffboardingOp} (hops : ∀ op ∈ ops, op.Concerns t.id)
    (hrun : run (OffboardingOp.step cfg) db₁ ops = db') {cached cached' : Option String}
    (hcached : ∀ schemaName, cached = some schemaName → schemaName = t.schemaName)
    (hcached' : ∀ schemaName, cached' = some schemaName → schemaName = t.schemaName) {req : Request}
    (hreq : req.slug = .ok slug) (today today' : Date) :
    (db'.stateOf t.id = some .readOnly → Admits db' cached' today' req →
      req.method ∈ readMethods) ∧
    (t.currentSubscriptionId = none → t.isActive = true → t.subscriptionStatus ≠ .suspended →
      t.subscriptionStatus ≠ .cancelled → db'.stateOf t.id = some .readOnly →
      (Admits db' cached' today' req ↔ req.method ∈ readMethods)) ∧
    (t.currentSubscriptionId = none → db'.stateOf t.id = some .active →
      (t.isActive = true ∨ cached' = cached) → Admits db cached today req →
      Admits db' cached' today' req) ∧
    (∀ id, t.currentSubscriptionId = some id → t.isActive = true →
      (∀ sub, db.subscriptions.get? id = some sub → sub.tenantId = t.id) →
      db'.stateOf t.id = some .active → ¬ Admits db' cached' today' req) := by
  have hget : db.tenants.get? t.id = some t := by
    obtain ⟨t', ht', -, hget⟩ := bySlug_of_directory rfl ht
    rw [hget, Option.some.inj (ht'.symm.trans ht)]
  -- the slug still leads to the tenant
  have hdir : db'.directory = db.directory := by
    rw [← hrun, directory_run]
    exact directory_offboardingOp cfg (.cancel m t.id actorId reason) hcancel
  obtain ⟨t', ht', hentry, hget'⟩ := bySlug_of_directory hdir ht
  have hschemaName : t'.schemaName = t.schemaName := congrArg (fun e => e.2.2) hentry
  have hstate : db'.stateOf t.id = some t'.lifecycleState := stateOf_of_get? hget'
  have hadmits : Admits db' cached' today' req ↔ _ :=
    admits_iff hreq ht' (hschemaName ▸ hcached') (hschemaName ▸ hschema)
  -- without a subscription, the gates read the columns they read before
  have hkept : t.currentSubscriptionId = none → t'.access = t.access := by
    intro hnone
    obtain ⟨hget₁, -⟩ := cancel_without_subscription hget hnone hcancel
    have hsettled : Settled db₁ (t.enter .cancelled m.now) := by
      intro id hid
      exact nomatch hnone.symm.trans hid
    obtain ⟨t₂, hget₂, haccess, -⟩ := access_run cfg hget₁ hsettled hops
    rw [hrun] at hget₂
    rw [Option.some.inj (hget'.symm.trans hget₂), haccess, access_enter]
  have hgrace : ∀ (db : Db) (t : TenantRow), t.currentSubscriptionId = none →
      db.graceEnd t = none := by
    intro db t hnone
    rw [Db.graceEnd, hnone]
    rfl
  refine ⟨?_, ?_, ?_, ?_⟩
  · intro hreadOnly hadmit
    have hgate := (hadmits.mp hadmit).2.1
    rw [Option.some.inj (hstate.symm.trans hreadOnly)] at hgate
    exact offboardingGate_readOnly.mp hgate
  · intro hnone hactive hsuspended hcancelled hreadOnly
    obtain ⟨hactive', hstatus', hnone'⟩ : t'.isActive = t.isActive ∧
        t'.subscriptionStatus = t.subscriptionStatus ∧
        t'.currentSubscriptionId = t.currentSubscriptionId := by
      simpa [TenantRow.access] using hkept hnone
    rw [hadmits, hgrace db' t' (hnone'.trans hnone), hactive', hstatus', subscriptionGate_none,
      Option.some.inj (hstate.symm.trans hreadOnly), offboardingGate_readOnly]
    exact ⟨fun h => h.2.1, fun h => ⟨.inr hactive, h, fun _ => ⟨hsuspended, hcancelled⟩⟩⟩
  · intro hnone hback hcache hadmit
    obtain ⟨hactive', hstatus', hnone'⟩ : t'.isActive = t.isActive ∧
        t'.subscriptionStatus = t.subscriptionStatus ∧
        t'.currentSubscriptionId = t.currentSubscriptionId := by
      simpa [TenantRow.access] using hkept hnone
    obtain ⟨hresolve, -, hsubscription⟩ := (admits_iff hreq ht hcached hschema).mp hadmit
    rw [hgrace db t hnone, subscriptionGate_none] at hsubscription
    rw [hadmits, hgrace db' t' (hnone'.trans hnone), hactive', hstatus', subscriptionGate_none,
      Option.some.inj (hstate.symm.trans hback)]
    refine ⟨?_, rfl, hsubscription⟩
    rcases hcache with hactive | rfl
    · exact .inr hactive
    · exact hresolve
  · intro id hcurrent hactive hown hback hadmit
    obtain ⟨t₁, hget₁, haccess₁, hsettled⟩ :=
      cancel_with_subscription hget hcurrent hown hcancel
    obtain ⟨t₂, hget₂, haccess, -⟩ := access_run cfg hget₁ hsettled hops
    rw [hrun] at hget₂
    rw [← Option.some.inj (hget'.symm.trans hget₂), haccess₁] at haccess
    obtain ⟨hactive', hstatus', -⟩ : t'.isActive = t.isActive ∧
        t'.subscriptionStatus = .cancelled ∧ t'.currentSubscriptionId = some id := by
      simpa [TenantRow.access] using haccess
    have hgate := (hadmits.mp hadmit).2.2 (hactive'.trans hactive)
    rw [hstatus'] at hgate
    exact nomatch hgate

/-- A `GET` for the sample tenant. -/
def umojaGet : Request := ⟨some "umoja", "GET"⟩

theorem offboarding_access_umoja :
    ∃ db', db'.stateOf 1 = some .readOnly ∧
      run (OffboardingOp.step defaultSettings) freshDb
        [.cancel ⟨0, dayOne⟩ 1 9 "closing", .sweepCancelledToReadOnly (days 7) fun _ => days 7]
          = db' ∧
      (Admits db' none dayOne umojaGet ↔ "GET" ∈ readMethods) := by
  have hcancel : OffboardingService.cancel ⟨0, dayOne⟩ 1 9 "closing" freshDb
      = .ok () (OffboardingOp.step defaultSettings freshDb (.cancel ⟨0, dayOne⟩ 1 9 "closing")) := by
    rfl
  have hslug : freshDb.bySlug "umoja" = some freshTenant := by decide
  have hreq : umojaGet.slug = .ok "umoja" := by decide +kernel
  have hschema : schemaRe freshTenant.schemaName = true := by decide +kernel
  have hops : ∀ op ∈ [OffboardingOp.sweepCancelledToReadOnly (days 7) fun _ => days 7],
      op.Concerns freshTenant.id := by simp [OffboardingOp.Concerns]
  have hcached : ∀ schemaName, (none : Option String) = some schemaName →
      schemaName = freshTenant.schemaName := fun _ h => by cases h
  have haccess := offboarding_access defaultSettings hslug hschema hcancel hops rfl hcached hcached
    hreq dayOne dayOne
  have hreadOnly : (run (OffboardingOp.step defaultSettings) freshDb
      [.cancel ⟨0, dayOne⟩ 1 9 "closing", .sweepCancelledToReadOnly (days 7) fun _ => days 7]).stateOf
        1 = some .readOnly := by decide +kernel
  exact ⟨_, hreadOnly, rfl, haccess.2.1 rfl rfl (by decide) (by decide) hreadOnly⟩

/-- The sample tenant on the monthly plan. -/
def subscribedDb : Db :=
  commit (SubscriptionService.assign ⟨0, dayOne⟩ 1 3 none) plannedDb

/-- Cancelled and restored, the tenant is refused what it was admitted to before. -/
theorem restored_without_access :
    Admits subscribedDb none dayOne umojaGet ∧
      (run (OffboardingOp.step defaultSettings) subscribedDb
        [.cancel ⟨0, dayOne⟩ 1 9 "closing"]).stateOf 1 = some .cancelled ∧
      (run (OffboardingOp.step defaultSettings) subscribedDb
        [.cancel ⟨0, dayOne⟩ 1 9 "closing", .restore ⟨1, dayOne⟩ 1 9]).stateOf 1 = some .active ∧
      ¬ Admits (run (OffboardingOp.step defaultSettings) subscribedDb
        [.cancel ⟨0, dayOne⟩ 1 9 "closing", .restore ⟨1, dayOne⟩ 1 9]) none dayOne umojaGet := by
  decide +kernel

end SaccoPlatform.Platform
