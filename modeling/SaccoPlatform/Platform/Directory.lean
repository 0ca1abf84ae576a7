import SaccoPlatform.Platform.Gate
import SaccoPlatform.Platform.Lifecycle

/-!
# The directory of tenants

The id, the slug and the schema of a tenant never change: whatever the services do, a slug leads to
the row of the same tenant.
-/

namespace SaccoPlatform.Platform

open Lib Session

/-- What a request is routed by. -/
def TenantRow.entry (t : TenantRow) : Uuid × String × String := (t.id, t.slug, t.schemaName)

/-- The ids, slugs and schemas of all tenants. -/
def Db.directory (db : Db) : List (Uuid × String × String) :=
  db.tenants.rows.map TenantRow.entry

section

variable {db db' : Db} {slug : String} {t : TenantRow}

theorem entry_bySlug (db : Db) (slug : String) :
    (db.bySlug slug).map TenantRow.entry = db.directory.find? fun e => e.2.1 = slug := by
  unfold Db.directory
  rw [List.find?_map]
  rfl

/-- While the directory stands, a slug leads to the same tenant. -/
theorem bySlug_of_directory (hdir : db'.directory = db.directory) (h : db.bySlug slug = some t) :
    ∃ t', db'.bySlug slug = some t' ∧ t'.entry = t.entry ∧ db'.tenants.get? t.id = some t' := by
  have hentry : (db'.bySlug slug).map TenantRow.entry = some t.entry := by
    rw [entry_bySlug, hdir, ← entry_bySlug, h, Option.map_some]
  obtain ⟨t', ht', heq⟩ := Option.map_eq_some_iff.mp hentry
  have hid : t'.id = t.id := congrArg Prod.fst heq
  refine ⟨t', ht', heq, ?_⟩
  rw [← hid]
  exact Keyed.get?_of_mem (List.mem_of_find?_eq_some ht')

/-- Writing back a tenant keeps the directory. -/
theorem directory_put {t' : TenantRow} (ht : t ∈ db.tenants.rows) (hentry : t'.entry = t.entry) :
    (db.tenants.put t').rows.map TenantRow.entry = db.directory := by
  have hmem : t'.entry ∈ db.tenants.rows.map TenantRow.entry :=
    hentry ▸ List.mem_map_of_mem ht
  exact Keyed.map_put (g := Prod.fst) (fun _ => rfl) hmem

end

/-! ## The services keep the directory -/

section

variable {db db' : Db}

theorem directory_billed {subs : Subscriptions} {t : TenantRow} {tenantId : Uuid}
    (ht : db.tenants.get? tenantId = some t) (status : SubscriptionStatus) (id : Uuid) :
    (db.billed subs t status id).directory = db.directory :=
  directory_put (Keyed.mem_of_get? ht) rfl

theorem directory_billingOp (op : BillingOp) {u : Unit} (h : op.perform db = .ok u db') :
    db'.directory = db.directory := by
  cases op with
  | assign m tenantId planId startDate =>
    obtain ⟨id, db₁, hassign, hpure⟩ := bind_eq_ok.mp h
    obtain ⟨-, rfl⟩ := pure_eq_ok.mp hpure
    obtain ⟨t, plan, periodEnd, subs, ht, -, -, -, -, -, -, rfl⟩ := assign_eq_ok.mp hassign
    exact directory_billed ht _ _
  | cancel m id reason atPeriodEnd =>
    cases atPeriodEnd with
    | false =>
      obtain ⟨sub, subs, t, -, -, -, ht, rfl⟩ := cancel_now_eq_ok.mp h
      exact directory_billed ht _ _
    | true =>
      obtain ⟨sub, subs, -, -, -, rfl⟩ := cancel_later_eq_ok.mp h
      rfl
  | reactivate m id =>
    obtain ⟨sub, plan, periodEnd, subs, t, -, -, -, -, -, ht, rfl⟩ := reactivate_eq_ok.mp h
    exact directory_billed ht _ _
  | transitionToPastDue m id =>
    obtain ⟨sub, plan, graceEnd, subs, t, -, -, -, -, -, ht, rfl⟩ := transitionToPastDue_eq_ok.mp h
    exact directory_billed ht _ _
  | transitionToSuspended id =>
    obtain ⟨sub, subs, t, -, -, -, ht, rfl⟩ := transitionToSuspended_eq_ok.mp h
    exact directory_billed ht _ _
  | suspend id =>
    obtain ⟨t, ht, rfl⟩ := suspend_eq_ok.mp h
    split
    · rfl
    · exact directory_put (Keyed.mem_of_get? ht) rfl
  | reactivateTenant id =>
    obtain ⟨t, ht, -, rfl⟩ := reactivateTenant_eq_ok.mp h
    exact directory_put (Keyed.mem_of_get? ht) rfl

end

/-! ## What offboarding writes -/

/-- A tenant without the columns that only offboarding writes. -/
def TenantRow.frame (t : TenantRow) : TenantRow :=
  { t with
    lifecycleState := .active, cancelledAt := none, readOnlyAt := none, archivedAt := none,
    hardDeletedAt := none, retentionHoldUntil := none }

/-- The tenants without the columns that only offboarding writes. -/
def Db.framed (db : Db) : List TenantRow := db.tenants.rows.map TenantRow.frame

section

variable {db db' : Db}

theorem frame_enter (t : TenantRow) (toState : LifecycleState) (clock : Timestamp) :
    (t.enter toState clock).frame = t.frame := by
  cases toState <;> rfl

theorem directory_framed (db : Db) : db.framed.map TenantRow.entry = db.directory := by
  unfold Db.framed Db.directory
  rw [List.map_map]
  rfl

theorem get?_framed (db : Db) (id : Uuid) :
    (db.tenants.get? id).map TenantRow.frame = db.framed.find? fun t => t.id = id := by
  unfold Db.framed
  rw [List.find?_map]
  rfl

/-- While the frames stand, a tenant is found with the columns that offboarding does not write. -/
theorem get?_of_framed (h : db'.framed = db.framed) {id : Uuid} {t : TenantRow}
    (ht : db.tenants.get? id = some t) :
    ∃ t', db'.tenants.get? id = some t' ∧ t'.frame = t.frame := by
  have hframe : (db'.tenants.get? id).map TenantRow.frame = some t.frame := by
    rw [get?_framed, h, ← get?_framed, ht, Option.map_some]
  exact Option.map_eq_some_iff.mp hframe

/-- Writing back a tenant with its frame. -/
theorem framed_put {tenants : Keyed (fun t : TenantRow => t.id)} {t : TenantRow}
    (hrow : t.frame ∈ tenants.rows.map TenantRow.frame) (t' : TenantRow)
    (hframe : t'.frame = t.frame) :
    (tenants.put t').rows.map TenantRow.frame = tenants.rows.map TenantRow.frame :=
  Keyed.map_put (g := fun t : TenantRow => t.id) (fun _ => rfl) (hframe ▸ hrow)

theorem framed_swept (db : Db) (toState : LifecycleState) (clock : Uuid → Timestamp)
    {rows : List TenantRow} (hrows : ∀ t ∈ rows, t ∈ db.tenants.rows) :
    (db.swept toState clock rows).framed = db.framed := by
  have hloop : ∀ tenants : Keyed (fun t : TenantRow => t.id),
      tenants.rows.map TenantRow.frame = db.framed →
      (rows.foldl (fun ts t => ts.put (t.enter toState (clock t.id))) tenants).rows.map
        TenantRow.frame = db.framed := by
    induction rows with
    | nil => exact fun _ h => h
    | cons t rows ih =>
      intro tenants h
      apply ih fun t ht => hrows t (List.mem_cons_of_mem _ ht)
      have hrow : t.frame ∈ tenants.rows.map TenantRow.frame := by
        rw [h]
        exact List.mem_map_of_mem (hrows t List.mem_cons_self)
      exact (framed_put hrow _ (frame_enter t toState (clock t.id))).trans h
  exact hloop db.tenants rfl

/-- The subscription that an operation of offboarding goes on to cancel: only `cancel` does, for a
tenant with a current subscription. -/
def OffboardingOp.cancels? (db : Db) : OffboardingOp → Option (Moment × Uuid × String)
  | .cancel m tenantId _ reason =>
    ((db.tenants.get? tenantId).bind fun t => t.currentSubscriptionId).map fun id =>
      (m, id, s!"Tenant offboarding: {reason}")
  | _ => none

/-- An operation of offboarding keeps the frames, the subscriptions, the plans and the invoices, up to
the subscription that it cancels in the end. -/
theorem offboardingOp_cases (cfg : OffboardingSettings) (op : OffboardingOp) {u : Unit}
    (h : op.perform cfg db = .ok u db') :
    ∃ db₁ : Db, db₁.framed = db.framed ∧ db₁.subscriptions = db.subscriptions ∧
      (db₁.plans = db.plans ∧ db₁.invoices = db.invoices) ∧
      (op.cancels? db = none ∧ db' = db₁ ∨ ∃ m id reason, op.cancels? db = some (m, id, reason) ∧
        SubscriptionService.cancel m id reason false db₁ = .ok u db') := by
  have hsweep : ∀ due toState clock, OffboardingService.sweep due toState clock db = .ok u db' →
      db'.framed = db.framed ∧ db'.subscriptions = db.subscriptions ∧
        db'.plans = db.plans ∧ db'.invoices = db.invoices := by
    intro due toState clock hsweep
    rw [sweep_eq] at hsweep
    cases hsweep
    exact ⟨framed_swept db toState clock fun t ht => List.mem_of_mem_filter ht, rfl, rfl, rfl⟩
  have hmem : ∀ {id t}, db.tenants.get? id = some t → t.frame ∈ db.framed :=
    fun ht => List.mem_map_of_mem (Keyed.mem_of_get? ht)
  cases op with
  | cancel m tenantId actorId reason =>
    -- the tenant is moved first, its subscription, if there is one, is cancelled behind it
    obtain ⟨t, ht, -, -, hbill⟩ := cancel_eq_ok.mp h
    refine ⟨{ db with
      tenants := db.tenants.put (t.enter .cancelled m.now)
      lifecycleEvents := db.lifecycleEvents ++
        [t.leaving .cancelled (some actorId) (some reason)] }, ?_, rfl, ⟨rfl, rfl⟩, ?_⟩
    · exact framed_put (hmem ht) _ rfl
    · cases hcurrent : t.currentSubscriptionId with
      | none =>
        rw [hcurrent] at hbill
        cases hbill
        exact .inl ⟨by simp [OffboardingOp.cancels?, ht, hcurrent], rfl⟩
      | some id =>
        rw [hcurrent] at hbill
        exact .inr ⟨m, id, _, by simp [OffboardingOp.cancels?, ht, hcurrent], hbill⟩
  | restore m tenantId actorId =>
    obtain ⟨t, ht, -, -, -, rfl⟩ := restore_eq_ok.mp h
    -- `restore` writes the row twice
    have hfirst : (db.tenants.put (t.enter .active m.now)).rows.map TenantRow.frame = db.framed :=
      framed_put (hmem ht) _ rfl
    have hrow : t.frame ∈ (db.tenants.put (t.enter .active m.now)).rows.map TenantRow.frame :=
      hfirst.symm ▸ hmem ht
    refine ⟨_, ?_, ?_, ?_, .inl ⟨rfl, rfl⟩⟩
    · exact (framed_put hrow t.restored rfl).trans hfirst
    · rfl
    · exact ⟨rfl, rfl⟩
  | extendRetention tenantId actorId holdUntil =>
    obtain ⟨t, ht, -, rfl⟩ := extendRetention_eq_ok.mp h
    refine ⟨_, ?_, ?_, ?_, .inl ⟨rfl, rfl⟩⟩
    · exact framed_put (hmem ht) { t with retentionHoldUntil := some holdUntil } rfl
    · rfl
    · exact ⟨rfl, rfl⟩
  | sweepCancelledToReadOnly now clock =>
    obtain ⟨hframed, hsubs, hrest⟩ := hsweep _ _ clock h
    exact ⟨db', hframed, hsubs, hrest, .inl ⟨rfl, rfl⟩⟩
  | sweepReadOnlyToArchived now clock =>
    obtain ⟨hframed, hsubs, hrest⟩ := hsweep _ _ clock h
    exact ⟨db', hframed, hsubs, hrest, .inl ⟨rfl, rfl⟩⟩
  | sweepArchivedToHardDeleted now clock =>
    obtain ⟨hframed, hsubs, hrest⟩ := hsweep _ _ clock h
    exact ⟨db', hframed, hsubs, hrest, .inl ⟨rfl, rfl⟩⟩

theorem directory_offboardingOp (cfg : OffboardingSettings) (op : OffboardingOp) {u : Unit}
    (h : op.perform cfg db = .ok u db') : db'.directory = db.directory := by
  obtain ⟨db₁, hframed, -, -, hrest⟩ := offboardingOp_cases cfg op h
  have hdir : db₁.directory = db.directory := by
    rw [← directory_framed, hframed, directory_framed]
  obtain ⟨-, rfl⟩ | ⟨m, id, reason, -, hcancel⟩ := hrest
  · exact hdir
  · exact (directory_billingOp (.cancel m id reason false) hcancel).trans hdir

end

end SaccoPlatform.Platform
