import SaccoPlatform.Platform.Directory

/-!
# The gate signal and the subscriptions

`tenants.subscription_status` is a copy: the gate reads it instead of the subscription. Three
services write it, each from what it happens to know. The copy agrees with the subscriptions after
every operation of a run exactly when no operation copies a status over the suspension of its
tenant, none names a subscription current while another one is live, and none reactivates a tenant
whose last subscription has ended.
-/

namespace SaccoPlatform.Platform

open Lib Session

/-! ## Agreement -/

/-- A suspended tenant is signalled as suspended, another one as its current subscription, which is
the live one where there is one. -/
def InSync (subs : Subscriptions) (t : TenantRow) : Prop :=
  if t.status = .suspended then t.subscriptionStatus = .suspended
  else
    (match t.currentSubscriptionId with
      | none => t.subscriptionStatus = .pending
      | some id => (subs.get? id).map (·.status) = some t.subscriptionStatus) ∧
    ∀ live ∈ subs.liveFor t.id, t.currentSubscriptionId = some live.id

def Db.InSync (db : Db) : Prop := ∀ t ∈ db.tenants.rows, Platform.InSync db.subscriptions t

/-- Current subscriptions belong to their tenants, and `pending` is no status of a subscription. -/
structure Db.Linked (db : Db) : Prop where
  owned : ∀ t ∈ db.tenants.rows, ∀ id, t.currentSubscriptionId = some id →
    ∃ s ∈ db.subscriptions.rows, s.id = id ∧ s.tenantId = t.id
  named : ∀ s ∈ db.subscriptions.rows, s.status ≠ .pending

/-! ## One subscription is written -/

/-- `subs'` has `row` in place of the row of its id, if there was one, and is else as `subs`. -/
structure Written (subs subs' : Subscriptions) (row : SubscriptionRow) : Prop where
  rows : ∀ s, s ∈ subs'.rows ↔ s = row ∨ s ∈ subs.rows ∧ s.id ≠ row.id
  owner : ∀ s ∈ subs.rows, s.id = row.id → s.tenantId = row.tenantId

section

variable {subs subs' : Subscriptions} {row : SubscriptionRow}

theorem written_put {id : Uuid} {sub : SubscriptionRow} (hput : subs.put? row = some subs')
    (hsub : subs.get? id = some sub) (hid : row.id = sub.id)
    (htenant : row.tenantId = sub.tenantId) : Written subs subs' row where
  rows := by
    intro s
    have hmem : sub ∈ subs.rows := Keyed.mem_of_get? hsub
    rw [Subscriptions.toKeyed_of_put? hput, Keyed.mem_put]
    constructor
    · rintro (⟨hs, hne⟩ | ⟨rfl, -⟩)
      · exact .inr ⟨hs, hne⟩
      · exact .inl rfl
    · rintro (rfl | ⟨hs, hne⟩)
      · exact .inr ⟨rfl, sub, hmem, hid.symm⟩
      · exact .inl ⟨hs, hne⟩
  owner := by
    intro s hs hsid
    have hsame : s = sub := subs.eq_of_key hs (Keyed.mem_of_get? hsub) (hsid.trans hid)
    rw [hsame, htenant]

theorem written_insert {f : Uuid → SubscriptionRow} {hf : ∀ k, (f k).id = k}
    (hinsert : subs.insert? f hf = some subs') : Written subs subs' (f subs.fresh) where
  rows := by
    intro s
    rw [Subscriptions.toKeyed_of_insert? hinsert, Keyed.rows_insertNew, List.mem_append,
      List.mem_singleton, or_comm]
    refine or_congr_right ⟨fun hs => ⟨hs, ?_⟩, And.left⟩
    have hlt : s.id < subs.fresh := Keyed.lt_fresh hs
    rw [hf]
    exact hlt.ne
  owner := by
    intro s hs hsid
    have hlt : s.id < subs.fresh := Keyed.lt_fresh hs
    rw [hf] at hsid
    exact absurd hsid hlt.ne

variable (hwritten : Written subs subs' row)

include hwritten

theorem Written.mem : row ∈ subs'.rows := (hwritten.rows row).mpr (.inl rfl)

/-- The subscriptions of other tenants stay. -/
theorem Written.beside {s : SubscriptionRow} (hs : s.tenantId ≠ row.tenantId) :
    s ∈ subs'.rows ↔ s ∈ subs.rows := by
  rw [hwritten.rows]
  constructor
  · rintro (rfl | ⟨hmem, -⟩)
    · exact absurd rfl hs
    · exact hmem
  · intro hmem
    exact .inr ⟨hmem, fun hid => hs (hwritten.owner s hmem hid)⟩

theorem Written.liveFor_beside {tenantId : Uuid} (h : tenantId ≠ row.tenantId) :
    subs'.liveFor tenantId = subs.liveFor tenantId := by
  ext live
  rw [Subscriptions.liveFor_eq_some, Subscriptions.liveFor_eq_some]
  constructor
  · rintro ⟨hmem, rfl, hlive⟩
    exact ⟨(hwritten.beside h).mp hmem, rfl, hlive⟩
  · rintro ⟨hmem, rfl, hlive⟩
    exact ⟨(hwritten.beside h).mpr hmem, rfl, hlive⟩

theorem Written.inSync_beside {t : TenantRow} (ht : t.id ≠ row.tenantId)
    (howned : ∀ id, t.currentSubscriptionId = some id →
      ∃ s ∈ subs.rows, s.id = id ∧ s.tenantId = t.id) :
    InSync subs' t ↔ InSync subs t := by
  unfold InSync
  rw [hwritten.liveFor_beside ht]
  cases hcurrent : t.currentSubscriptionId with
  | none => rfl
  | some id =>
    -- the current subscription is the tenant's own, so it is not the one that is written
    obtain ⟨s, hs, rfl, htenant⟩ := howned id hcurrent
    have hs' : s ∈ subs'.rows := (hwritten.beside (htenant.trans_ne ht)).mpr hs
    have hget : subs.get? s.id = some s := Keyed.get?_of_mem hs
    have hget' : subs'.get? s.id = some s := Keyed.get?_of_mem hs'
    simp only [hget, hget']

/-- The tenant of the subscription, with its status copied. -/
theorem Written.inSync_copied {t : TenantRow} (ht : t.id = row.tenantId) :
    InSync subs' { t with
        subscriptionStatus := row.status, currentSubscriptionId := some row.id } ↔
      if t.status = .suspended then row.status = .suspended
      else ∀ live ∈ subs'.liveFor row.tenantId, live.id = row.id := by
  have hget : subs'.get? row.id = some row := Keyed.get?_of_mem hwritten.mem
  unfold InSync
  split
  · rfl
  · simp only [hget, Option.map_some, true_and, ht, Option.some.injEq]
    exact forall_congr' fun live => imp_congr_right fun _ => eq_comm

/-- A live subscription is the only live one of its tenant. -/
theorem Written.liveFor_live (hlive : IsLive row.status) :
    ∀ live ∈ subs'.liveFor row.tenantId, live.id = row.id := by
  intro live h
  obtain ⟨hmem, htenant, hlive'⟩ := Subscriptions.liveFor_eq_some.mp h
  exact subs'.oneLive live hmem row hwritten.mem hlive' hlive htenant

/-- A subscription that ends leaves no live one, unless another one was live. -/
theorem Written.liveFor_ended (hended : ¬ IsLive row.status) :
    (∀ live ∈ subs'.liveFor row.tenantId, live.id = row.id) ↔
      ∀ live ∈ subs.liveFor row.tenantId, live.id = row.id := by
  constructor
  · intro h live hlive
    obtain ⟨hmem, htenant, hstatus⟩ := Subscriptions.liveFor_eq_some.mp hlive
    by_contra hne
    have hmem' : live ∈ subs'.rows := (hwritten.rows live).mpr (.inr ⟨hmem, hne⟩)
    exact hne (h live (Subscriptions.liveFor_eq_some.mpr ⟨hmem', htenant, hstatus⟩))
  · intro h live hlive
    obtain ⟨hmem, htenant, hstatus⟩ := Subscriptions.liveFor_eq_some.mp hlive
    obtain rfl | ⟨hmem, -⟩ := (hwritten.rows live).mp hmem
    · rfl
    · exact h live (Subscriptions.liveFor_eq_some.mpr ⟨hmem, htenant, hstatus⟩)

end

/-! ## The commands of billing -/

section

variable {db db' : Db} {t : TenantRow} {tenantId : Uuid}

/-- Writing back one tenant. -/
theorem forall_tenants_put {P : TenantRow → Prop} (ht : db.tenants.get? tenantId = some t)
    (t' : TenantRow) (hid : t'.id = tenantId) :
    (∀ r ∈ (db.tenants.put t').rows, P r) ↔ P t' ∧ ∀ r ∈ db.tenants.rows, r.id ≠ tenantId → P r := by
  have hmem : t ∈ db.tenants.rows := Keyed.mem_of_get? ht
  have hkey : t.id = tenantId := Db.id_of_tenant ht
  constructor
  · intro h
    refine ⟨h t' (Keyed.mem_put.mpr (.inr ⟨rfl, t, hmem, hkey.trans hid.symm⟩)), ?_⟩
    intro r hr hne
    exact h r (Keyed.mem_put.mpr (.inl ⟨hr, fun heq => hne (heq.trans hid)⟩))
  · rintro ⟨hnew, hold⟩ r hr
    obtain ⟨hr, hne⟩ | ⟨rfl, -⟩ := Keyed.mem_put.mp hr
    · exact hold r hr fun heq => hne (heq.trans hid.symm)
    · exact hnew

variable {subs : Subscriptions} {row : SubscriptionRow}

/-- A subscription is written and its status copied: what matters is its tenant. -/
theorem inSync_billed (hlinked : db.Linked) (h : db.InSync)
    (hwritten : Written db.subscriptions subs row) (ht : db.tenants.get? row.tenantId = some t) :
    (db.billed subs t row.status row.id).InSync ↔
      if t.status = .suspended then row.status = .suspended
      else ∀ live ∈ subs.liveFor row.tenantId, live.id = row.id := by
  have hid : t.id = row.tenantId := Db.id_of_tenant ht
  rw [← hwritten.inSync_copied hid]
  have hsplit : (db.billed subs t row.status row.id).InSync ↔ _ ∧ _ :=
    forall_tenants_put (P := InSync subs) ht { t with
      subscriptionStatus := row.status, currentSubscriptionId := some row.id } hid
  rw [hsplit]
  refine and_iff_left ?_
  intro r hr hne
  exact (hwritten.inSync_beside hne (hlinked.owned r hr)).mpr (h r hr)

theorem linked_billed (hlinked : db.Linked) (hwritten : Written db.subscriptions subs row)
    (ht : db.tenants.get? row.tenantId = some t) (hstatus : row.status ≠ .pending) :
    (db.billed subs t row.status row.id).Linked where
  owned := by
    have hid : t.id = row.tenantId := Db.id_of_tenant ht
    refine (forall_tenants_put (P := fun r : TenantRow => ∀ id, r.currentSubscriptionId = some id →
      ∃ s ∈ subs.rows, s.id = id ∧ s.tenantId = r.id) ht { t with
        subscriptionStatus := row.status, currentSubscriptionId := some row.id } hid).mpr ⟨?_, ?_⟩
    · rintro id ⟨⟩
      exact ⟨row, hwritten.mem, rfl, hid.symm⟩
    · intro r hr hne id hcurrent
      obtain ⟨s, hs, hsid, htenant⟩ := hlinked.owned r hr id hcurrent
      exact ⟨s, (hwritten.beside (htenant.trans_ne hne)).mpr hs, hsid, htenant⟩
  named := by
    intro s hs
    obtain rfl | ⟨hs, -⟩ := (hwritten.rows s).mp hs
    · exact hstatus
    · exact hlinked.named s hs

/-- A subscription is written in place of one of its tenant, and nothing is copied. -/
theorem linked_written (hlinked : db.Linked) (hwritten : Written db.subscriptions subs row)
    (hstatus : row.status ≠ .pending) : Db.Linked { db with subscriptions := subs } where
  owned := by
    intro t ht id hcurrent
    obtain ⟨s, hs, hsid, htenant⟩ := hlinked.owned t ht id hcurrent
    by_cases hrow : s.id = row.id
    · exact ⟨row, hwritten.mem, hrow.symm.trans hsid, (hwritten.owner s hs hrow).symm.trans htenant⟩
    · exact ⟨s, (hwritten.rows s).mpr (.inr ⟨hs, hrow⟩), hsid, htenant⟩
  named := by
    intro s hs
    obtain rfl | ⟨hs, -⟩ := (hwritten.rows s).mp hs
    · exact hstatus
    · exact hlinked.named s hs

/-- Only one tenant is written, and its current subscription is its own. -/
theorem linked_tenant (hlinked : db.Linked) (ht : db.tenants.get? tenantId = some t)
    (t' : TenantRow) (hid : t'.id = tenantId)
    (howned : ∀ id, t'.currentSubscriptionId = some id →
      ∃ s ∈ db.subscriptions.rows, s.id = id ∧ s.tenantId = t'.id) :
    Db.Linked { db with tenants := db.tenants.put t' } := by
  refine ⟨?_, hlinked.named⟩
  refine (forall_tenants_put (P := fun r : TenantRow => ∀ id, r.currentSubscriptionId = some id →
    ∃ s ∈ db.subscriptions.rows, s.id = id ∧ s.tenantId = r.id) ht t' hid).mpr ⟨howned, ?_⟩
  exact fun r hr _ => hlinked.owned r hr

theorem linked_reactivateTenant (hlinked : db.Linked) (ht : db.tenants.get? tenantId = some t) :
    Db.Linked { db with
      tenants := db.tenants.put (t.reactivated (db.subscriptions.liveFor tenantId)) } := by
  have hid : t.id = tenantId := Db.id_of_tenant ht
  cases hlive : db.subscriptions.liveFor tenantId with
  | some live =>
    obtain ⟨hmem, htenant, -⟩ := Subscriptions.liveFor_eq_some.mp hlive
    refine linked_tenant hlinked ht (t.reactivated (some live)) hid ?_
    rintro id ⟨⟩
    exact ⟨live, hmem, rfl, htenant.trans hid.symm⟩
  | none =>
    exact linked_tenant hlinked ht (t.reactivated none) hid (hlinked.owned t (Keyed.mem_of_get? ht))

theorem linked_cancel_now (hlinked : db.Linked) {m : Moment} {id : Uuid} {reason : String} {u : Unit}
    (hok : SubscriptionService.cancel m id reason false db = .ok u db') : db'.Linked := by
  obtain ⟨sub, subs, t, hsub, -, hput, ht, rfl⟩ := cancel_now_eq_ok.mp hok
  exact linked_billed hlinked (written_put hput hsub rfl rfl) ht (by simp)

/-- Copying a live status goes wrong for a suspended tenant only. -/
theorem inSync_billed_live (hlinked : db.Linked) (h : db.InSync)
    (hwritten : Written db.subscriptions subs row) (ht : db.tenants.get? row.tenantId = some t)
    (hlive : IsLive row.status) :
    (db.billed subs t row.status row.id).InSync ↔ t.status ≠ .suspended := by
  have hne : row.status ≠ .suspended := by
    intro hstatus
    rw [hstatus] at hlive
    exact absurd hlive (by decide)
  rw [inSync_billed hlinked h hwritten ht]
  by_cases hstatus : t.status = .suspended
  · rw [if_pos hstatus]
    exact iff_of_false hne (not_not.mpr hstatus)
  · rw [if_neg hstatus]
    exact iff_of_true (hwritten.liveFor_live hlive) hstatus

/-- The tenant of a subscription. -/
def Db.ownerOf (db : Db) (subscriptionId : Uuid) : Option TenantRow :=
  (db.subscriptions.get? subscriptionId).bind fun s => db.tenants.get? s.tenantId

theorem ownerOf_eq {id : Uuid} {sub : SubscriptionRow} (hsub : db.subscriptions.get? id = some sub)
    (ht : db.tenants.get? sub.tenantId = some t) : db.ownerOf id = some t := by
  rw [Db.ownerOf, hsub, Option.bind_some, ht]

/-- The command copies no status over a suspension, names no subscription current while another one
is live, and does not reactivate a tenant whose last subscription has ended. -/
def BillingOp.CopiesSafely (db : Db) : BillingOp → Prop
  | .assign _ tenantId _ _ => ∀ t ∈ db.tenants.get? tenantId, t.status ≠ .suspended
  | .cancel _ id _ false => ∀ t ∈ db.ownerOf id,
      t.status ≠ .suspended ∧ ∀ live ∈ db.subscriptions.liveFor t.id, live.id = id
  | .cancel _ _ _ true => True
  | .reactivate _ id => ∀ t ∈ db.ownerOf id, t.status ≠ .suspended
  | .transitionToPastDue _ id => ∀ t ∈ db.ownerOf id, t.status ≠ .suspended
  | .transitionToSuspended _ => True
  | .suspend _ => True
  | .reactivateTenant id => ∀ t ∈ db.tenants.get? id,
      t.currentSubscriptionId = none ∨ (db.subscriptions.liveFor id).isSome

theorem inSync_cancel_now (hlinked : db.Linked) (h : db.InSync) {m : Moment} {id : Uuid}
    {reason : String} {u : Unit}
    (hok : SubscriptionService.cancel m id reason false db = .ok u db') :
    db'.InSync ↔ (BillingOp.cancel m id reason false).CopiesSafely db := by
  obtain ⟨sub, subs, t, hsub, -, hput, ht, rfl⟩ := cancel_now_eq_ok.mp hok
  obtain rfl : sub.id = id := Db.id_of_subscription hsub
  have htid : t.id = sub.tenantId := Db.id_of_tenant ht
  have hwritten := written_put hput hsub rfl rfl
  refine (inSync_billed hlinked h hwritten ht).trans ?_
  rw [BillingOp.CopiesSafely, ownerOf_eq hsub ht]
  simp only [Option.mem_some_iff, forall_eq']
  rw [htid]
  by_cases hstatus : t.status = .suspended
  · simp [hstatus]
  · rw [if_neg hstatus, hwritten.liveFor_ended (by simp [IsLive])]
    exact (and_iff_right hstatus).symm

/-- The marker of a later cancellation changes no status. -/
theorem inSync_cancel_later (hlinked : db.Linked) (h : db.InSync) {m : Moment} {id : Uuid}
    {reason : String} {u : Unit}
    (hok : SubscriptionService.cancel m id reason true db = .ok u db') : db'.InSync := by
  obtain ⟨sub, subs, hsub, -, hput, rfl⟩ := cancel_later_eq_ok.mp hok
  have hmem : sub ∈ db.subscriptions.rows := Keyed.mem_of_get? hsub
  have hwritten := written_put hput hsub rfl rfl
  -- every row is still there, but for the marker
  have hkept : ∀ s ∈ db.subscriptions.rows, ∃ s' ∈ subs.rows,
      s'.id = s.id ∧ s'.tenantId = s.tenantId ∧ s'.status = s.status := by
    intro s hs
    by_cases hsid : s.id = sub.id
    · obtain rfl : s = sub := db.subscriptions.eq_of_key hs hmem hsid
      exact ⟨_, hwritten.mem, rfl, rfl, rfl⟩
    · exact ⟨s, (hwritten.rows s).mpr (.inr ⟨hs, hsid⟩), rfl, rfl, rfl⟩
  have hback : ∀ s' ∈ subs.rows, ∃ s ∈ db.subscriptions.rows,
      s'.id = s.id ∧ s'.tenantId = s.tenantId ∧ s'.status = s.status := by
    intro s' hs'
    obtain rfl | ⟨hs, -⟩ := (hwritten.rows s').mp hs'
    · exact ⟨sub, hmem, rfl, rfl, rfl⟩
    · exact ⟨s', hs, rfl, rfl, rfl⟩
  intro t ht
  have hold := h t ht
  unfold InSync at hold ⊢
  by_cases hstatus : t.status = .suspended
  · rw [if_pos hstatus] at hold ⊢
    exact hold
  · rw [if_neg hstatus] at hold ⊢
    refine ⟨?_, ?_⟩
    · cases hcurrent : t.currentSubscriptionId with
      | none => simpa [hcurrent] using hold.1
      | some id =>
        obtain ⟨s, hs, rfl, -⟩ := hlinked.owned t ht id hcurrent
        obtain ⟨s', hs', hid', -, hstatus'⟩ := hkept s hs
        have hget : db.subscriptions.get? s.id = some s := Keyed.get?_of_mem hs
        have hget' : subs.get? s'.id = some s' := Keyed.get?_of_mem hs'
        rw [hid'] at hget'
        simpa [hcurrent, hget, hget', hstatus'] using hold.1
    · intro live hlive
      obtain ⟨hlmem, htenant, hlstatus⟩ := Subscriptions.liveFor_eq_some.mp hlive
      obtain ⟨s, hs, hid, htenant', hstatus'⟩ := hback live hlmem
      rw [hid]
      exact hold.2 s (Subscriptions.liveFor_eq_some.mpr
        ⟨hs, htenant' ▸ htenant, hstatus' ▸ hlstatus⟩)

/-- Only one tenant is written. -/
theorem inSync_tenant (h : db.InSync) (ht : db.tenants.get? tenantId = some t) (t' : TenantRow)
    (hid : t'.id = tenantId) :
    Db.InSync { db with tenants := db.tenants.put t' } ↔ InSync db.subscriptions t' := by
  have hsplit : Db.InSync { db with tenants := db.tenants.put t' } ↔ _ ∧ _ :=
    forall_tenants_put (P := InSync db.subscriptions) ht t' hid
  rw [hsplit]
  exact and_iff_left fun r hr _ => h r hr

theorem inSync_reactivateTenant (hlinked : db.Linked) (h : db.InSync)
    (ht : db.tenants.get? tenantId = some t) :
    Db.InSync { db with
        tenants := db.tenants.put (t.reactivated (db.subscriptions.liveFor tenantId)) } ↔
      t.currentSubscriptionId = none ∨ (db.subscriptions.liveFor tenantId).isSome := by
  have hid : t.id = tenantId := Db.id_of_tenant ht
  cases hlive : db.subscriptions.liveFor tenantId with
  | some live =>
    obtain ⟨hmem, -, -⟩ := Subscriptions.liveFor_eq_some.mp hlive
    have hget : db.subscriptions.get? live.id = some live := Keyed.get?_of_mem hmem
    refine (inSync_tenant h ht (t.reactivated (some live)) hid).trans (iff_of_true ?_ (.inr rfl))
    simp [InSync, TenantRow.reactivated, hget, hid, hlive]
  | none =>
    refine (inSync_tenant h ht (t.reactivated none) hid).trans ?_
    cases hcurrent : t.currentSubscriptionId with
    | none => simp [InSync, TenantRow.reactivated, hid, hlive, hcurrent]
    | some id =>
      -- the last subscription has ended, and no subscription is `pending`
      obtain ⟨s, hs, rfl, -⟩ := hlinked.owned t (Keyed.mem_of_get? ht) id hcurrent
      have hget : db.subscriptions.get? s.id = some s := Keyed.get?_of_mem hs
      have hnamed := hlinked.named s hs
      simp [InSync, TenantRow.reactivated, hcurrent, hget, hnamed]

theorem inSync_transitionToSuspended (hlinked : db.Linked) (h : db.InSync) {id : Uuid} {u : Unit}
    (hok : SubscriptionService.transitionToSuspended id db = .ok u db') : db'.InSync := by
  obtain ⟨sub, subs, t, hsub, hpastDue, hput, ht, rfl⟩ := transitionToSuspended_eq_ok.mp hok
  have hwritten := written_put hput hsub rfl rfl
  refine (inSync_billed hlinked h hwritten ht).mpr ?_
  split
  · rfl
  · refine (hwritten.liveFor_ended (by simp [IsLive])).mpr ?_
    -- the subscription itself was the live one
    intro live hlive
    obtain ⟨hmem, htenant, hstatus⟩ := Subscriptions.liveFor_eq_some.mp hlive
    exact db.subscriptions.oneLive live hmem sub (Keyed.mem_of_get? hsub) hstatus
      (.inr (.inr hpastDue)) htenant

theorem isLive_firstPeriod (plan : SubscriptionPlan) : IsLive plan.firstPeriod.1 := by
  unfold SubscriptionPlan.firstPeriod
  split
  · exact .inl rfl
  · exact .inr (.inl rfl)

theorem ne_pending_of_isLive {status : SubscriptionStatus} (h : IsLive status) :
    status ≠ .pending := by
  rintro rfl
  exact absurd h (by decide)

theorem linked_billingOp (hlinked : db.Linked) (op : BillingOp) {u : Unit}
    (hok : op.perform db = .ok u db') : db'.Linked := by
  cases op with
  | assign m tenantId planId startDate =>
    obtain ⟨id, db₁, hassign, hpure⟩ := bind_eq_ok.mp hok
    obtain ⟨-, rfl⟩ := pure_eq_ok.mp hpure
    obtain ⟨t, plan, periodEnd, subs, ht, -, -, -, -, hinsert, rfl, rfl⟩ := assign_eq_ok.mp hassign
    exact linked_billed hlinked (written_insert hinsert) ht
      (ne_pending_of_isLive (isLive_firstPeriod plan))
  | cancel m id reason atPeriodEnd =>
    cases atPeriodEnd with
    | false => exact linked_cancel_now hlinked hok
    | true =>
      obtain ⟨sub, subs, hsub, -, hput, rfl⟩ := cancel_later_eq_ok.mp hok
      exact linked_written hlinked (written_put hput hsub rfl rfl)
        (hlinked.named sub (Keyed.mem_of_get? hsub))
  | reactivate m id =>
    obtain ⟨sub, plan, periodEnd, subs, t, hsub, -, -, -, hput, ht, rfl⟩ := reactivate_eq_ok.mp hok
    exact linked_billed hlinked (written_put hput hsub rfl rfl) ht (by simp)
  | transitionToPastDue m id =>
    obtain ⟨sub, plan, graceEnd, subs, t, hsub, -, -, -, hput, ht, rfl⟩ :=
      transitionToPastDue_eq_ok.mp hok
    exact linked_billed hlinked (written_put hput hsub rfl rfl) ht (by simp)
  | transitionToSuspended id =>
    obtain ⟨sub, subs, t, hsub, -, hput, ht, rfl⟩ := transitionToSuspended_eq_ok.mp hok
    exact linked_billed hlinked (written_put hput hsub rfl rfl) ht (by simp)
  | suspend id =>
    obtain ⟨t, ht, rfl⟩ := suspend_eq_ok.mp hok
    split
    · exact hlinked
    · have hid : t.id = id := Db.id_of_tenant ht
      exact linked_tenant hlinked ht t.suspended hid (hlinked.owned t (Keyed.mem_of_get? ht))
  | reactivateTenant id =>
    obtain ⟨t, ht, -, rfl⟩ := reactivateTenant_eq_ok.mp hok
    exact linked_reactivateTenant hlinked ht

/-- Exactly the commands that copy safely keep the signal in step with the subscriptions. -/
theorem inSync_billingOp (hlinked : db.Linked) (h : db.InSync) (op : BillingOp) {u : Unit}
    (hok : op.perform db = .ok u db') : db'.InSync ↔ op.CopiesSafely db := by
  cases op with
  | assign m tenantId planId startDate =>
    obtain ⟨id, db₁, hassign, hpure⟩ := bind_eq_ok.mp hok
    obtain ⟨-, rfl⟩ := pure_eq_ok.mp hpure
    obtain ⟨t, plan, periodEnd, subs, ht, -, -, -, -, hinsert, rfl, rfl⟩ :=
      assign_eq_ok.mp hassign
    refine (inSync_billed_live hlinked h (written_insert hinsert) ht
      (isLive_firstPeriod plan)).trans ?_
    simp [BillingOp.CopiesSafely, ht]
  | cancel m id reason atPeriodEnd =>
    cases atPeriodEnd with
    | false => exact inSync_cancel_now hlinked h hok
    | true => exact iff_of_true (inSync_cancel_later hlinked h hok) trivial
  | reactivate m id =>
    obtain ⟨sub, plan, periodEnd, subs, t, hsub, -, -, -, hput, ht, rfl⟩ := reactivate_eq_ok.mp hok
    refine (inSync_billed_live hlinked h (written_put hput hsub rfl rfl) ht
      (.inr (.inl rfl))).trans ?_
    simp [BillingOp.CopiesSafely, ownerOf_eq hsub ht]
  | transitionToPastDue m id =>
    obtain ⟨sub, plan, graceEnd, subs, t, hsub, -, -, -, hput, ht, rfl⟩ :=
      transitionToPastDue_eq_ok.mp hok
    refine (inSync_billed_live hlinked h (written_put hput hsub rfl rfl) ht
      (.inr (.inr rfl))).trans ?_
    simp [BillingOp.CopiesSafely, ownerOf_eq hsub ht]
  | transitionToSuspended id => exact iff_of_true (inSync_transitionToSuspended hlinked h hok) trivial
  | suspend id =>
    obtain ⟨t, ht, rfl⟩ := suspend_eq_ok.mp hok
    split
    · exact iff_of_true h trivial
    · have hid : t.id = id := Db.id_of_tenant ht
      have hsuspended : InSync db.subscriptions t.suspended := by
        simp [InSync, TenantRow.suspended]
      exact iff_of_true ((inSync_tenant h ht t.suspended hid).mpr hsuspended) trivial
  | reactivateTenant id =>
    obtain ⟨t, ht, -, rfl⟩ := reactivateTenant_eq_ok.mp hok
    refine (inSync_reactivateTenant hlinked h ht).trans ?_
    simp [BillingOp.CopiesSafely, ht]

end

/-! ## Offboarding -/

section

variable {db db' : Db}

/-- The operation does not cancel the subscription of a suspended tenant. -/
def OffboardingOp.CopiesSafely (db : Db) : OffboardingOp → Prop
  | .cancel _ tenantId _ _ => ∀ t ∈ db.tenants.get? tenantId,
      t.currentSubscriptionId = none ∨ t.status ≠ .suspended
  | _ => True

theorem inSync_frame (subs : Subscriptions) (t : TenantRow) :
    InSync subs t.frame ↔ InSync subs t := Iff.rfl

theorem inSync_framed (hframed : db'.framed = db.framed)
    (hsubs : db'.subscriptions = db.subscriptions) (h : db.InSync) : db'.InSync := by
  intro t' ht'
  have hframe : t'.frame ∈ db.framed := hframed ▸ List.mem_map_of_mem ht'
  obtain ⟨t, ht, heq⟩ := List.mem_map.mp hframe
  rw [hsubs, ← inSync_frame, ← heq, inSync_frame]
  exact h t ht

theorem linked_framed (hframed : db'.framed = db.framed)
    (hsubs : db'.subscriptions = db.subscriptions) (h : db.Linked) : db'.Linked where
  owned := by
    intro t' ht' id hcurrent
    have hframe : t'.frame ∈ db.framed := hframed ▸ List.mem_map_of_mem ht'
    obtain ⟨t, ht, heq⟩ := List.mem_map.mp hframe
    have hid : t.frame.id = t'.frame.id := congrArg (fun t : TenantRow => t.id) heq
    have hcurrent' : t.frame.currentSubscriptionId = t'.frame.currentSubscriptionId :=
      congrArg (fun t : TenantRow => t.currentSubscriptionId) heq
    obtain ⟨s, hs, hsid, htenant⟩ := h.owned t ht id (hcurrent'.trans hcurrent)
    exact ⟨s, hsubs ▸ hs, hsid, htenant.trans hid⟩
  named := hsubs ▸ h.named

theorem linked_offboardingOp (hlinked : db.Linked) (cfg : OffboardingSettings) (op : OffboardingOp)
    {u : Unit} (hok : op.perform cfg db = .ok u db') : db'.Linked := by
  obtain ⟨db₁, hframed, hsubs, -, hrest⟩ := offboardingOp_cases cfg op hok
  have hlinked₁ : db₁.Linked := linked_framed hframed hsubs hlinked
  obtain ⟨-, rfl⟩ | ⟨m, id, reason, -, hcancel⟩ := hrest
  · exact hlinked₁
  · exact linked_cancel_now hlinked₁ hcancel

theorem inSync_offboardingOp (hlinked : db.Linked) (h : db.InSync) (cfg : OffboardingSettings)
    (op : OffboardingOp) {u : Unit} (hok : op.perform cfg db = .ok u db') :
    db'.InSync ↔ op.CopiesSafely db := by
  obtain ⟨db₁, hframed, hsubs, -, hrest⟩ := offboardingOp_cases cfg op hok
  have hlinked₁ : db₁.Linked := linked_framed hframed hsubs hlinked
  have hsync₁ : db₁.InSync := inSync_framed hframed hsubs h
  obtain ⟨hnone, rfl⟩ | ⟨m, id, reason, hcancels, hcancel⟩ := hrest
  · refine iff_of_true hsync₁ ?_
    cases op with
    | cancel m tenantId actorId reason =>
      intro t ht
      rw [Option.mem_def] at ht
      simp only [OffboardingOp.cancels?, ht, Option.bind_some, Option.map_eq_none_iff] at hnone
      exact .inl hnone
    | _ => trivial
  · refine (inSync_cancel_now hlinked₁ hsync₁ hcancel).trans ?_
    cases op with
    | cancel m' tenantId actorId reason' =>
      obtain ⟨t, ht, hcurrent⟩ : ∃ t, db.tenants.get? tenantId = some t ∧
          t.currentSubscriptionId = some id := by
        simp only [OffboardingOp.cancels?, Option.map_eq_some_iff, Option.bind_eq_some_iff,
          Prod.mk.injEq] at hcancels
        obtain ⟨id', ⟨t, ht, hcurrent⟩, -, rfl, -⟩ := hcancels
        exact ⟨t, ht, hcurrent⟩
      obtain ⟨t₁, ht₁, hframe⟩ := get?_of_framed hframed ht
      have hstatus : t₁.frame.status = t.frame.status :=
        congrArg (fun t : TenantRow => t.status) hframe
      have hcurrent₁ : t₁.frame.currentSubscriptionId = t.frame.currentSubscriptionId :=
        congrArg (fun t : TenantRow => t.currentSubscriptionId) hframe
      have hmem₁ : t₁ ∈ db₁.tenants.rows := Keyed.mem_of_get? ht₁
      have hid₁ : t₁.id = tenantId := Db.id_of_tenant ht₁
      -- the current subscription is the tenant's own
      obtain ⟨sub, hsub, rfl, htenant⟩ := hlinked₁.owned t₁ hmem₁ id (hcurrent₁.trans hcurrent)
      have hget : db₁.subscriptions.get? sub.id = some sub := Keyed.get?_of_mem hsub
      have howner : db₁.ownerOf sub.id = some t₁ := by
        apply ownerOf_eq hget
        rw [htenant, hid₁]
        exact ht₁
      have hright : (OffboardingOp.cancel m' tenantId actorId reason').CopiesSafely db ↔
          t₁.status ≠ .suspended := by
        have hstatus' : t₁.status = t.status := hstatus
        simp [OffboardingOp.CopiesSafely, ht, hcurrent, hstatus']
      rw [hright, BillingOp.CopiesSafely, howner]
      simp only [Option.mem_some_iff, forall_eq']
      refine and_iff_left_of_imp ?_
      intro hnot live hlive
      have hsync := hsync₁ t₁ hmem₁
      rw [InSync, if_neg hnot] at hsync
      have hcurrentLive := hsync.2 live hlive
      exact (Option.some.inj (hcurrentLive.symm.trans (hcurrent₁.trans hcurrent)))
    | _ => cases hcancels

end

/-! ## Runs -/

/-- An operation of the three services. -/
inductive PlatformOp where
  | bill (op : BillingOp)
  | offboard (op : OffboardingOp)

def PlatformOp.perform (cfg : OffboardingSettings) : PlatformOp → PlatformCall Unit
  | .bill op => op.perform
  | .offboard op => op.perform cfg

/-- One operation in a transaction of its own. -/
def PlatformOp.step (cfg : OffboardingSettings) (db : Db) (op : PlatformOp) : Db :=
  commit (op.perform cfg) db

def PlatformOp.CopiesSafely (db : Db) : PlatformOp → Prop
  | .bill op => op.CopiesSafely db
  | .offboard op => op.CopiesSafely db

/-- The operation is refused, or it copies safely. -/
def PlatformOp.KeepsSignal (cfg : OffboardingSettings) (db : Db) (op : PlatformOp) : Prop :=
  (∃ u db', op.perform cfg db = .ok u db') → op.CopiesSafely db

theorem inSync_platformOp {db db' : Db} (hlinked : db.Linked) (h : db.InSync)
    (cfg : OffboardingSettings) (op : PlatformOp) {u : Unit}
    (hok : op.perform cfg db = .ok u db') : db'.InSync ↔ op.CopiesSafely db := by
  cases op with
  | bill op => exact inSync_billingOp hlinked h op hok
  | offboard op => exact inSync_offboardingOp hlinked h cfg op hok

theorem linked_step (cfg : OffboardingSettings) {db : Db} (hlinked : db.Linked) (op : PlatformOp) :
    (op.step cfg db).Linked := by
  refine commit_keeps (P := fun db : Db => db.Linked) hlinked fun u db' hok => ?_
  cases op with
  | bill op => exact linked_billingOp hlinked op hok
  | offboard op => exact linked_offboardingOp hlinked cfg op hok

theorem inSync_step (cfg : OffboardingSettings) {db : Db} (hlinked : db.Linked) (h : db.InSync)
    (op : PlatformOp) : (op.step cfg db).InSync ↔ op.KeepsSignal cfg db :=
  commit_iff (P := fun db : Db => db.InSync) h fun _ _ hok => inSync_platformOp hlinked h cfg op hok

/-- From a state in which the signals agree, they agree after every operation of a run if and only
if every operation is refused or copies safely. -/
theorem gate_signal_in_sync_iff (cfg : OffboardingSettings) {db : Db} (hlinked : db.Linked)
    (hsync : db.InSync) (ops : List PlatformOp) :
    (∀ front, front <+: ops → (run (PlatformOp.step cfg) db front).InSync) ↔
      Along (PlatformOp.step cfg) (PlatformOp.KeepsSignal cfg) db ops := by
  have hlinkedStep : ∀ (db : Db) op, db.Linked → db.InSync → (PlatformOp.step cfg db op).Linked :=
    fun _ op hl _ => linked_step cfg hl op
  have hsyncStep : ∀ (db : Db) op, db.Linked → db.InSync →
      ((PlatformOp.step cfg db op).InSync ↔ PlatformOp.KeepsSignal cfg db op) :=
    fun _ op hl hs => inSync_step cfg hl hs op
  exact always_iff_along hlinkedStep hsyncStep hlinked hsync ops

theorem linked_plannedDb : plannedDb.Linked where
  owned := by
    intro t ht id hcurrent
    rw [List.mem_singleton.mp ht] at hcurrent
    cases hcurrent
  named := fun s hs => absurd hs List.not_mem_nil

theorem inSync_plannedDb : plannedDb.InSync := by
  intro t ht
  rw [List.mem_singleton.mp ht]
  simp [InSync, freshTenant, plannedDb, freshDb, Subscriptions.liveFor]

/-- A plan is assigned, the tenant suspended by hand and reactivated. -/
def suspendedAndBack : List PlatformOp :=
  [.bill (.assign ⟨0, dayOne⟩ 1 3 none), .bill (.suspend 1), .bill (.reactivateTenant 1)]

theorem gate_signal_in_sync_umoja :
    (run (PlatformOp.step defaultSettings) plannedDb suspendedAndBack).InSync := by
  refine (gate_signal_in_sync_iff defaultSettings linked_plannedDb inSync_plannedDb
    suspendedAndBack).mpr ⟨fun _ => ?_, fun _ => trivial, fun _ => ?_, trivial⟩ suspendedAndBack
    (List.prefix_refl _)
  · show ∀ t ∈ plannedDb.tenants.get? 1, t.status ≠ .suspended
    decide +kernel
  · show ∀ t ∈ (run (PlatformOp.step defaultSettings) plannedDb
      (suspendedAndBack.take 2)).tenants.get? 1, _ ∨ _
    decide +kernel

/-- The first subscription is suspended, a second one assigned; then the first one is cancelled. -/
def oldCancelled : List PlatformOp :=
  [.bill (.assign ⟨0, dayOne⟩ 1 3 none), .bill (.transitionToPastDue ⟨1, dayOne⟩ 1),
    .bill (.transitionToSuspended 1), .bill (.assign ⟨2, dayOne⟩ 1 3 none),
    .bill (.cancel ⟨3, dayOne⟩ 1 "duplicate" false)]

/-- The tenant is signalled as cancelled although its second subscription is live. -/
theorem old_cancellation_overwrites_signal :
    ((run (PlatformOp.step defaultSettings) plannedDb oldCancelled).tenants.get? 1).map
        (fun t => (t.status, t.subscriptionStatus, t.currentSubscriptionId))
      = some (.active, .cancelled, some 1) ∧
    ((run (PlatformOp.step defaultSettings) plannedDb oldCancelled).subscriptions.liveFor 1).map
        (fun s => (s.id, s.status)) = some (2, .active) ∧
    ¬ (run (PlatformOp.step defaultSettings) plannedDb oldCancelled).InSync := by
  have htenant : ((run (PlatformOp.step defaultSettings) plannedDb oldCancelled).tenants.get? 1).map
      (fun t => (t.status, t.subscriptionStatus, t.currentSubscriptionId))
        = some (.active, .cancelled, some 1) := by decide +kernel
  have hlive : ((run (PlatformOp.step defaultSettings) plannedDb
      oldCancelled).subscriptions.liveFor 1).map (fun s => (s.id, s.status))
        = some (2, .active) := by decide +kernel
  refine ⟨htenant, hlive, fun hsync => ?_⟩
  obtain ⟨t, ht, hsignal⟩ := Option.map_eq_some_iff.mp htenant
  obtain ⟨live, hlive', hid⟩ := Option.map_eq_some_iff.mp hlive
  have hid' : t.id = 1 := Db.id_of_tenant ht
  have htenant' := hsync t (Keyed.mem_of_get? ht)
  simp only [Prod.mk.injEq] at hsignal hid
  rw [InSync, if_neg (by simp [hsignal.1]), hsignal.2.2, hid'] at htenant'
  have hcurrent := htenant'.2 live hlive'
  rw [hid.1] at hcurrent
  cases hcurrent

end SaccoPlatform.Platform
