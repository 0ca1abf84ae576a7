import SaccoPlatform.Lib.Returns
import SaccoPlatform.Platform.Drift

/-!
# Offboarding again

`restore` leaves the subscription cancelled, and the tenant keeps pointing to it. `cancel` cancels the
subscription that the tenant points to, whatever state it is in, and the cancellation of a cancelled
subscription is refused: a tenant that was offboarded with its subscription and restored cannot be
offboarded again before a plan is assigned to it.
-/

namespace SaccoPlatform.Platform

open Lib Session

section

variable {db : Db}

/-- A subscription that has ended is in nobody's way. -/
theorem put?_of_ended {subs : Subscriptions} (row : SubscriptionRow) (hended : ¬ IsLive row.status) :
    ∃ subs', subs.put? row = some subs' := by
  have hbefore : ∀ s ∈ (subs.put row).rows, IsLive s.status → s ∈ subs.rows := by
    intro s hs hlive
    obtain ⟨hs, -⟩ | ⟨rfl, -⟩ := Keyed.mem_put.mp hs
    · exact hs
    · exact absurd hlive hended
  have hone : OneLive (subs.put row).rows := by
    intro s hs s' hs' hlive hlive' hsame
    exact subs.oneLive s (hbefore s hs hlive) s' (hbefore s' hs' hlive') hlive hlive' hsame
  exact ⟨_, dif_pos hone⟩

/-- The immediate cancellation of a subscription whose tenant exists. -/
theorem returns_cancel_now {sub : SubscriptionRow} {t : TenantRow} {m : Moment} {reason : String}
    (hsub : db.subscriptions.get? sub.id = some sub) (ht : db.tenants.get? sub.tenantId = some t) :
    Returns (SubscriptionService.cancel m sub.id reason false) db ↔ sub.status ≠ .cancelled := by
  constructor
  · intro ⟨u, db', hok⟩
    obtain ⟨sub', subs, tenant, hsub', hstatus, -⟩ := cancel_now_eq_ok.mp hok
    rw [Option.some.inj (hsub.symm.trans hsub')]
    exact hstatus
  · intro hstatus
    obtain ⟨subs, hput⟩ := @put?_of_ended db.subscriptions { sub with
      cancelledAt := some m.now, cancellationReason := some reason, status := .cancelled }
      (by simp [IsLive])
    exact ⟨(), _, cancel_now_eq_ok.mpr ⟨sub, subs, t, hsub, hstatus, hput, ht, rfl⟩⟩

/-- An active tenant can be offboarded exactly when it has no subscription that was cancelled. -/
theorem returns_cancel_iff (hlinked : db.Linked) {tenantId actorId : Uuid} {t : TenantRow}
    (ht : db.tenants.get? tenantId = some t) (hactive : t.lifecycleState = .active)
    (hactor : actorId ∈ db.users) (m : Moment) (reason : String) :
    Returns (OffboardingService.cancel m tenantId actorId reason) db ↔
      ∀ id ∈ t.currentSubscriptionId,
        (db.subscriptions.get? id).map (·.status) ≠ some .cancelled := by
  have hid : t.id = tenantId := Db.id_of_tenant ht
  cases hcurrent : t.currentSubscriptionId with
  | none =>
    constructor
    · intro _ id hmem
      cases hmem
    · intro _
      refine ⟨(), { db with
        tenants := db.tenants.put (t.enter .cancelled m.now)
        lifecycleEvents := db.lifecycleEvents ++
          [t.leaving .cancelled (some actorId) (some reason)] }, ?_⟩
      rw [cancel_eq_ok]
      refine ⟨t, ht, hactive, hactor, ?_⟩
      rw [hcurrent]
      rfl
  | some id =>
    have hcancel : Returns (OffboardingService.cancel m tenantId actorId reason) db ↔
        Returns (SubscriptionService.cancel m id s!"Tenant offboarding: {reason}" false)
          { db with
            tenants := db.tenants.put (t.enter .cancelled m.now)
            lifecycleEvents := db.lifecycleEvents ++
              [t.leaving .cancelled (some actorId) (some reason)] } := by
      constructor
      · rintro ⟨u, db', hok⟩
        obtain ⟨t', ht', -, -, hbill⟩ := cancel_eq_ok.mp hok
        rw [← Option.some.inj (ht.symm.trans ht'), hcurrent] at hbill
        exact ⟨u, db', hbill⟩
      · rintro ⟨u, db', hbill⟩
        refine ⟨u, db', cancel_eq_ok.mpr ⟨t, ht, hactive, hactor, ?_⟩⟩
        rw [hcurrent]
        exact hbill
    rw [hcancel]
    obtain ⟨sub, hmem, rfl, htenant⟩ := hlinked.owned t (Keyed.mem_of_get? ht) id hcurrent
    have hsub : db.subscriptions.get? sub.id = some sub := Keyed.get?_of_mem hmem
    have hentered : (db.tenants.put (t.enter .cancelled m.now)).get? sub.tenantId
        = some (t.enter .cancelled m.now) := by
      rw [htenant]
      exact Keyed.get?_put_self (hid.symm ▸ ht) rfl
    refine (@returns_cancel_now { db with
      tenants := db.tenants.put (t.enter .cancelled m.now)
      lifecycleEvents := db.lifecycleEvents ++
        [t.leaving .cancelled (some actorId) (some reason)] } sub _ m _ hsub hentered).trans ?_
    simp only [Option.mem_some_iff, forall_eq', hsub, Option.map_some, ne_eq, Option.some.injEq]

end

/-- In every state that billing and offboarding operations lead to, an active tenant can be offboarded
exactly when it has no subscription that was cancelled. -/
theorem offboarding_available_iff (cfg : OffboardingSettings) {db₀ : Db} (hlinked : db₀.Linked)
    (ops : List PlatformOp) {tenantId actorId : Uuid} {t : TenantRow}
    (ht : (run (PlatformOp.step cfg) db₀ ops).tenants.get? tenantId = some t)
    (hactive : t.lifecycleState = .active)
    (hactor : actorId ∈ (run (PlatformOp.step cfg) db₀ ops).users) (m : Moment) (reason : String) :
    Returns (OffboardingService.cancel m tenantId actorId reason) (run (PlatformOp.step cfg) db₀ ops) ↔
      ∀ id ∈ t.currentSubscriptionId, ((run (PlatformOp.step cfg) db₀ ops).subscriptions.get? id).map
        (·.status) ≠ some .cancelled := by
  have hstep : ∀ (db : Db) (op : PlatformOp), db.Linked → (op.step cfg db).Linked :=
    fun _ op hs => linked_step cfg hs op
  have hreached : (run (PlatformOp.step cfg) db₀ ops).Linked :=
    run_invariant_of_step hstep ops hlinked
  exact returns_cancel_iff hreached ht hactive hactor m reason

/-- The sample tenant gets the monthly plan. -/
def planAssigned : List PlatformOp := [.bill (.assign ⟨0, dayOne⟩ 1 3 none)]

/-- A tenant with a running subscription can be offboarded. -/
theorem offboarding_available_umoja :
    Returns (OffboardingService.cancel ⟨1, dayOne⟩ 1 9 "closing")
      (run (PlatformOp.step defaultSettings) plannedDb planAssigned) := by
  obtain ⟨t, ht⟩ : ∃ t, (run (PlatformOp.step defaultSettings) plannedDb planAssigned).tenants.get? 1
      = some t := Option.isSome_iff_exists.mp (by decide +kernel)
  have hstate : ∀ t ∈ (run (PlatformOp.step defaultSettings) plannedDb planAssigned).tenants.get? 1,
      t.lifecycleState = .active ∧ ∀ id ∈ t.currentSubscriptionId,
        ((run (PlatformOp.step defaultSettings) plannedDb planAssigned).subscriptions.get? id).map
          (·.status) ≠ some .cancelled := by
    decide +kernel
  obtain ⟨hactive, hlive⟩ := hstate t ht
  exact (offboarding_available_iff defaultSettings linked_plannedDb planAssigned ht hactive
    (by decide +kernel) ⟨1, dayOne⟩ "closing").mpr hlive

/-- Offboarded and restored, the tenant is active, and offboarding it again is refused. -/
theorem offboarding_not_repeatable :
    ((run (PlatformOp.step defaultSettings) plannedDb (planAssigned ++
      [.offboard (.cancel ⟨1, dayOne⟩ 1 9 "closing"),
        .offboard (.restore ⟨2, dayOne⟩ 1 9)])).tenants.get? 1).map (·.lifecycleState)
          = some .active ∧
    ¬ Returns (OffboardingService.cancel ⟨3, dayOne⟩ 1 9 "closing")
      (run (PlatformOp.step defaultSettings) plannedDb (planAssigned ++
        [.offboard (.cancel ⟨1, dayOne⟩ 1 9 "closing"),
          .offboard (.restore ⟨2, dayOne⟩ 1 9)])) := by
  refine ⟨by decide +kernel, ?_⟩
  intro ⟨u, db', hok⟩
  obtain ⟨t, ht, -, -, hbill⟩ := cancel_eq_ok.mp hok
  have hcurrent : ∀ t ∈ (run (PlatformOp.step defaultSettings) plannedDb (planAssigned ++
      [.offboard (.cancel ⟨1, dayOne⟩ 1 9 "closing"),
        .offboard (.restore ⟨2, dayOne⟩ 1 9)])).tenants.get? 1, t.currentSubscriptionId = some 1 := by
    decide +kernel
  rw [hcurrent t ht] at hbill
  obtain ⟨sub, -, -, hsub, hstatus, -⟩ := cancel_now_eq_ok.mp hbill
  have hcancelled : ∀ sub ∈ (run (PlatformOp.step defaultSettings) plannedDb (planAssigned ++
      [.offboard (.cancel ⟨1, dayOne⟩ 1 9 "closing"),
        .offboard (.restore ⟨2, dayOne⟩ 1 9)])).subscriptions.get? 1, sub.status = .cancelled := by
    decide +kernel
  exact hstatus (hcancelled sub hsub)

end SaccoPlatform.Platform
