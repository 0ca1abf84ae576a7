import SaccoPlatform.Platform.Offboarding
import SaccoPlatform.Lib.ChangeLog

/-!
# The lifecycle of a tenant

What offboarding keeps of one tenant stands in three places: the state, the timestamps and the log
of `tenant_lifecycle_events`. `Lifecycle` is that part of the database, `Move` the ways it can
change, and every operation of `OffboardingService` makes at most one move with each tenant.
-/

namespace SaccoPlatform.Platform

open Lib Session

/-! ## The moves -/

/-- What offboarding keeps of one tenant. -/
structure Lifecycle where
  state : LifecycleState
  cancelledAt : Option Timestamp
  readOnlyAt : Option Timestamp
  archivedAt : Option Timestamp
  holdUntil : Option Timestamp
  log : List (Change LifecycleState)
deriving DecidableEq

def LifecycleEventRow.change (e : LifecycleEventRow) : Change LifecycleState :=
  ⟨e.fromState, e.toState⟩

/-- The events of one tenant, in the order of insertion. -/
def logOf (events : List LifecycleEventRow) (id : Uuid) : List (Change LifecycleState) :=
  (events.filter (·.tenantId = id)).map LifecycleEventRow.change

def TenantRow.lifecycle (t : TenantRow) (log : List (Change LifecycleState)) : Lifecycle where
  state := t.lifecycleState
  cancelledAt := t.cancelledAt
  readOnlyAt := t.readOnlyAt
  archivedAt := t.archivedAt
  holdUntil := t.retentionHoldUntil
  log := log

/-- The columns and the events of a tenant. -/
def Db.lifecycle? (db : Db) (id : Uuid) : Option Lifecycle :=
  (db.tenants.get? id).map fun t => t.lifecycle (logOf db.lifecycleEvents id)

/-- The ways a lifecycle changes. A sweep looks at the clock twice: once for the cutoff and once for
the stamp. -/
inductive Move where
  | cancel (clock : Timestamp)
  | readOnly (now clock : Timestamp)
  | archive (now clock : Timestamp)
  | hardDelete (now : Timestamp)
  | restore
  | hold (until_ : Timestamp)

namespace Lifecycle

/-- The guard of a move. -/
def Enabled (cfg : OffboardingSettings) (l : Lifecycle) : Move → Prop
  | .cancel _ => l.state = .active
  | .readOnly now _ =>
    l.state = .cancelled ∧ ∃ stamp, l.cancelledAt = some stamp ∧ stamp + days cfg.readOnlyDays ≤ now
  | .archive now _ =>
    l.state = .readOnly ∧
      (∃ stamp, l.readOnlyAt = some stamp ∧ stamp + days cfg.archiveDays ≤ now) ∧
      ∀ hold, l.holdUntil = some hold → hold ≤ now
  | .hardDelete now =>
    l.state = .archived ∧
      ∃ stamp, l.archivedAt = some stamp ∧ stamp + days cfg.hardDeleteDays ≤ now
  | .restore => l.state ∈ OffboardingService.restorable
  | .hold _ => True

/-- The lifecycle after a move. -/
def after (l : Lifecycle) : Move → Lifecycle
  | .cancel clock =>
    { l with state := .cancelled, cancelledAt := some clock,
             log := l.log ++ [⟨l.state, .cancelled⟩] }
  | .readOnly _ clock =>
    { l with state := .readOnly, readOnlyAt := some clock, log := l.log ++ [⟨l.state, .readOnly⟩] }
  | .archive _ clock =>
    { l with state := .archived, archivedAt := some clock, log := l.log ++ [⟨l.state, .archived⟩] }
  | .hardDelete _ => { l with state := .hardDeleted, log := l.log ++ [⟨l.state, .hardDeleted⟩] }
  | .restore =>
    { l with state := .active, cancelledAt := none, readOnlyAt := none, archivedAt := none,
             log := l.log ++ [⟨l.state, .active⟩] }
  | .hold until_ => { l with holdUntil := some until_, log := l.log ++ [⟨l.state, l.state⟩] }

end Lifecycle

/-- The move an operation can make with a tenant. -/
def OffboardingOp.move? (id : Uuid) : OffboardingOp → Option Move
  | .cancel m tenantId _ _ => if tenantId = id then some (.cancel m.now) else none
  | .restore _ tenantId _ => if tenantId = id then some .restore else none
  | .extendRetention tenantId _ holdUntil => if tenantId = id then some (.hold holdUntil) else none
  | .sweepCancelledToReadOnly now clock => some (.readOnly now (clock id))
  | .sweepReadOnlyToArchived now clock => some (.archive now (clock id))
  | .sweepArchivedToHardDeleted now _ => some (.hardDelete now)

section

variable {id : Uuid} {op : OffboardingOp} {now stamp : Timestamp}

theorem eq_cancel_of_move? (h : op.move? id = some (.cancel stamp)) :
    ∃ m actorId reason, op = .cancel m id actorId reason ∧ m.now = stamp := by
  cases op with
  | cancel m tenantId actorId reason =>
    simp only [OffboardingOp.move?, Option.ite_none_right_eq_some, Option.some.injEq,
      Move.cancel.injEq] at h
    obtain ⟨rfl, rfl⟩ := h
    exact ⟨m, actorId, reason, rfl, rfl⟩
  | _ => simp [OffboardingOp.move?] at h

theorem eq_sweep_of_move?_readOnly (h : op.move? id = some (.readOnly now stamp)) :
    ∃ clock, op = .sweepCancelledToReadOnly now clock ∧ clock id = stamp := by
  cases op with
  | sweepCancelledToReadOnly now clock =>
    simp only [OffboardingOp.move?, Option.some.injEq, Move.readOnly.injEq] at h
    obtain ⟨rfl, rfl⟩ := h
    exact ⟨clock, rfl, rfl⟩
  | _ => simp [OffboardingOp.move?] at h

theorem eq_sweep_of_move?_archive (h : op.move? id = some (.archive now stamp)) :
    ∃ clock, op = .sweepReadOnlyToArchived now clock ∧ clock id = stamp := by
  cases op with
  | sweepReadOnlyToArchived now clock =>
    simp only [OffboardingOp.move?, Option.some.injEq, Move.archive.injEq] at h
    obtain ⟨rfl, rfl⟩ := h
    exact ⟨clock, rfl, rfl⟩
  | _ => simp [OffboardingOp.move?] at h

theorem eq_sweep_of_move?_hardDelete (h : op.move? id = some (.hardDelete now)) :
    ∃ clock, op = .sweepArchivedToHardDeleted now clock := by
  cases op with
  | sweepArchivedToHardDeleted now clock =>
    simp only [OffboardingOp.move?, Option.some.injEq, Move.hardDelete.injEq] at h
    subst h
    exact ⟨clock, rfl⟩
  | _ => simp [OffboardingOp.move?] at h

end

/-! ## What the services leave of a lifecycle -/

section

variable {db db' : Db}

/-- Writing back a tenant without touching the columns of offboarding. -/
theorem lifecycle?_put {t t' : TenantRow} (ht : db.tenants.get? t'.id = some t)
    (hsame : ∀ log, t'.lifecycle log = t.lifecycle log) :
    Db.lifecycle? { db with tenants := db.tenants.put t' } = db.lifecycle? := by
  funext id
  show Option.map _ ((db.tenants.put t').get? id) = Option.map _ (db.tenants.get? id)
  by_cases h : t'.id = id
  · subst h
    rw [Keyed.get?_put_self ht rfl, ht, Option.map_some, Option.map_some, hsame]
  · rw [Keyed.get?_put_of_ne db.tenants h]

theorem moves_lifecycle_writeSubscription (row : SubscriptionRow) :
    Moves (Keeps Db.lifecycle?) (writeSubscription row) := by
  intro db
  refine ⟨?_, ?_⟩
  · intro u db' h
    obtain ⟨subs, -, rfl⟩ := writeSubscription_eq_ok.mp h
    rfl
  · intro e db' h
    unfold writeSubscription at h
    split at h <;> cases h

theorem moves_lifecycle_syncTenantStatus (tenantId : Uuid) (status : SubscriptionStatus)
    (subscriptionId : Uuid) :
    Moves (Keeps Db.lifecycle?)
      (SubscriptionService.syncTenantStatus tenantId status subscriptionId) := by
  intro db
  apply movesFrom_get_bind
  apply movesFrom_orRaise_bind
  intro t ht
  have hid : t.id = tenantId := Db.id_of_tenant ht
  refine ⟨?_, ?_⟩
  · intro u db' h
    cases h
    exact lifecycle?_put (t := t) (by rw [hid]; exact ht) fun _ => rfl
  · intro e db' h
    cases h

theorem moves_lifecycle_getSubscription (id : Uuid) :
    Moves (Keeps Db.lifecycle?) (getSubscription id) :=
  moves_bind moves_get fun _ => moves_orRaise _ _

/-- Billing never touches the columns of offboarding. -/
theorem moves_lifecycle_cancelSubscription (m : Moment) (id : Uuid) (reason : String) (b : Bool) :
    Moves (Keeps Db.lifecycle?) (SubscriptionService.cancel m id reason b) := by
  unfold SubscriptionService.cancel
  apply moves_bind (moves_lifecycle_getSubscription id)
  intro sub
  apply moves_bind (moves_require _ _)
  intro _
  by_cases hb : b = true
  · simp only [hb, if_true]
    exact moves_lifecycle_writeSubscription _
  · simp only [hb]
    exact moves_bind (moves_lifecycle_writeSubscription _) fun _ =>
      moves_lifecycle_syncTenantStatus _ _ _

/-- `db'` is `db` with one more event, of the tenant `id`. -/
theorem logOf_append (events : List LifecycleEventRow) (e : LifecycleEventRow) (id : Uuid) :
    logOf (events ++ [e]) id = if e.tenantId = id then logOf events id ++ [e.change]
      else logOf events id := by
  unfold logOf
  rw [List.filter_append, List.map_append]
  by_cases h : e.tenantId = id <;> simp [h]

/-- A tenant is written back together with an event of its own: nothing else changes. -/
theorem lifecycle?_put_event {t : TenantRow} {e : LifecycleEventRow} {id : Uuid} {l : Lifecycle}
    (hevent : e.tenantId = t.id) (hl : db.lifecycle? id = some l) :
    Db.lifecycle? { db with
      tenants := db.tenants.put t, lifecycleEvents := db.lifecycleEvents ++ [e] } id
        = some (if t.id = id then t.lifecycle (l.log ++ [e.change]) else l) := by
  obtain ⟨t₀, ht₀, rfl⟩ := Option.map_eq_some_iff.mp hl
  show Option.map _ ((db.tenants.put t).get? id) = _
  rw [logOf_append, hevent]
  by_cases h : t.id = id
  · rw [Keyed.get?_put_self ht₀ h, Option.map_some, if_pos h, if_pos h]
    rfl
  · rw [Keyed.get?_put_of_ne db.tenants h, ht₀, Option.map_some, if_neg h, if_neg h]

theorem addEvent_eq_ok {e : LifecycleEventRow} {u : Unit} :
    OffboardingService.addEvent e db = .ok u db' ↔
      (∀ actor, e.actorId = some actor → actor ∈ db.users) ∧
        db' = { db with lifecycleEvents := db.lifecycleEvents ++ [e] } := by
  unfold OffboardingService.addEvent
  rw [get_bind_eq_ok, constraint_bind_eq_ok, modify_eq_ok]

/-- The event of a transition. -/
def TenantRow.leaving (t : TenantRow) (toState : LifecycleState) (actorId : Option Uuid)
    (reason : Option String) : LifecycleEventRow where
  tenantId := t.id
  fromState := t.lifecycleState
  toState := toState
  actorId := actorId
  reason := reason
  metadata := none

theorem transition_eq_ok {clock : Timestamp} {t : TenantRow} {toState : LifecycleState}
    {actorId : Option Uuid} {reason : Option String} {u : Unit} :
    OffboardingService.transition clock t toState actorId reason db = .ok u db' ↔
      (∀ actor, actorId = some actor → actor ∈ db.users) ∧
        db' = { db with
          tenants := db.tenants.put (t.enter toState clock)
          lifecycleEvents := db.lifecycleEvents ++ [t.leaving toState actorId reason] } := by
  unfold OffboardingService.transition writeTenant
  rw [modify_bind_eq_ok, addEvent_eq_ok]
  rfl

@[simp] theorem enter_id (t : TenantRow) (toState : LifecycleState) (clock : Timestamp) :
    (t.enter toState clock).id = t.id := by
  cases toState <;> rfl

/-- What `cancel` does when it returns: the transition, then the subscription's cancellation. -/
theorem cancel_eq_ok {m : Moment} {tenantId actorId : Uuid} {reason : String} {u : Unit} :
    OffboardingService.cancel m tenantId actorId reason db = .ok u db' ↔
      ∃ t, db.tenants.get? tenantId = some t ∧ t.lifecycleState = .active ∧ actorId ∈ db.users ∧
        (match t.currentSubscriptionId with
          | some id => SubscriptionService.cancel m id s!"Tenant offboarding: {reason}" false
          | none => pure ())
          { db with
            tenants := db.tenants.put (t.enter .cancelled m.now)
            lifecycleEvents := db.lifecycleEvents ++
              [t.leaving .cancelled (some actorId) (some reason)] } = .ok u db' := by
  unfold OffboardingService.cancel OffboardingService.getTenant
  rw [bind_eq_ok]
  constructor
  · rintro ⟨t, db₁, ht, hrest⟩
    rw [get_bind_eq_ok, orRaise_eq_ok] at ht
    obtain ⟨ht, rfl⟩ := ht
    rw [require_bind_eq_ok, bind_eq_ok] at hrest
    obtain ⟨hactive, _, db₂, hmove, hbill⟩ := hrest
    obtain ⟨hactor, rfl⟩ := transition_eq_ok.mp hmove
    exact ⟨t, ht, hactive, hactor actorId rfl, hbill⟩
  · rintro ⟨t, ht, hactive, hactor, hbill⟩
    refine ⟨t, db, by rw [get_bind_eq_ok, orRaise_eq_ok]; exact ⟨ht, rfl⟩, ?_⟩
    rw [require_bind_eq_ok, bind_eq_ok]
    refine ⟨hactive, (), _, transition_eq_ok.mpr ⟨?_, rfl⟩, hbill⟩
    rintro actor ⟨⟩
    exact hactor

/-- The tenant after `restore`. -/
def TenantRow.restored (t : TenantRow) : TenantRow :=
  { t with lifecycleState := .active, cancelledAt := none, readOnlyAt := none, archivedAt := none }

theorem restore_eq_ok {m : Moment} {tenantId actorId : Uuid} {u : Unit} :
    OffboardingService.restore m tenantId actorId db = .ok u db' ↔
      ∃ t, db.tenants.get? tenantId = some t ∧ t.lifecycleState ∈ OffboardingService.restorable ∧
        t.archiveChecksum = none ∧ actorId ∈ db.users ∧
        db' = { db with
          tenants := (db.tenants.put (t.enter .active m.now)).put t.restored
          lifecycleEvents := db.lifecycleEvents ++ [t.leaving .active (some actorId) none] } := by
  unfold OffboardingService.restore OffboardingService.getTenant
  rw [bind_eq_ok]
  constructor
  · rintro ⟨t, db₁, ht, hrest⟩
    rw [get_bind_eq_ok, orRaise_eq_ok] at ht
    obtain ⟨ht, rfl⟩ := ht
    rw [require_bind_eq_ok, require_bind_eq_ok, bind_eq_ok] at hrest
    obtain ⟨hstate, hchecksum, _, db₂, hmove, hwrite⟩ := hrest
    obtain ⟨hactor, rfl⟩ := transition_eq_ok.mp hmove
    exact ⟨t, ht, hstate, hchecksum, hactor actorId rfl, modify_eq_ok.mp hwrite⟩
  · rintro ⟨t, ht, hstate, hchecksum, hactor, rfl⟩
    refine ⟨t, db, by rw [get_bind_eq_ok, orRaise_eq_ok]; exact ⟨ht, rfl⟩, ?_⟩
    rw [require_bind_eq_ok, require_bind_eq_ok, bind_eq_ok]
    refine ⟨hstate, hchecksum, (), _, transition_eq_ok.mpr ⟨?_, rfl⟩, modify_eq_ok.mpr rfl⟩
    rintro actor ⟨⟩
    exact hactor

theorem extendRetention_eq_ok {tenantId actorId : Uuid} {holdUntil : Timestamp} {u : Unit} :
    OffboardingService.extendRetention tenantId actorId holdUntil db = .ok u db' ↔
      ∃ t, db.tenants.get? tenantId = some t ∧ actorId ∈ db.users ∧
        db' = { db with
          tenants := db.tenants.put { t with retentionHoldUntil := some holdUntil }
          lifecycleEvents := db.lifecycleEvents ++
            [{ t.leaving t.lifecycleState (some actorId) (some "retention extended") with
                metadata := some holdUntil }] } := by
  unfold OffboardingService.extendRetention OffboardingService.getTenant writeTenant
  rw [bind_eq_ok]
  constructor
  · rintro ⟨t, db₁, ht, hrest⟩
    rw [get_bind_eq_ok, orRaise_eq_ok] at ht
    obtain ⟨ht, rfl⟩ := ht
    rw [modify_bind_eq_ok, addEvent_eq_ok] at hrest
    exact ⟨t, ht, hrest.1 actorId rfl, hrest.2⟩
  · rintro ⟨t, ht, hactor, rfl⟩
    refine ⟨t, db, by rw [get_bind_eq_ok, orRaise_eq_ok]; exact ⟨ht, rfl⟩, ?_⟩
    rw [modify_bind_eq_ok, addEvent_eq_ok]
    refine ⟨?_, rfl⟩
    rintro actor ⟨⟩
    exact hactor

/-! ### Sweeps -/

variable (due : TenantRow → Bool) (toState : LifecycleState) (clock : Uuid → Timestamp)

/-- The tables after a sweep over `rows`. -/
def Db.swept (db : Db) (rows : List TenantRow) : Db :=
  { db with
    tenants := rows.foldl (fun ts t => ts.put (t.enter toState (clock t.id))) db.tenants
    lifecycleEvents := db.lifecycleEvents ++ rows.map fun t => t.leaving toState none none }

theorem forEach_transition (rows : List TenantRow) (db : Db) :
    forEach (fun t => OffboardingService.transition (clock t.id) t toState none none) rows db
      = .ok () (db.swept toState clock rows) := by
  induction rows generalizing db with
  | nil => simp [forEach, Db.swept]
  | cons t rows ih =>
    have hfirst : OffboardingService.transition (clock t.id) t toState none none db
        = .ok () (db.swept toState clock [t]) := transition_eq_ok.mpr ⟨by simp, rfl⟩
    rw [forEach, bind_apply, hfirst]
    simp only [ih]
    simp [Db.swept]

theorem sweep_eq (db : Db) :
    OffboardingService.sweep due toState clock db
      = .ok () (db.swept toState clock (db.tenants.rows.filter due)) :=
  forEach_transition toState clock _ db

theorem tenants_swept (db : Db) (id : Uuid) :
    (db.swept toState clock (db.tenants.rows.filter due)).tenants.get? id
      = (db.tenants.get? id).map fun t => if due t then t.enter toState (clock t.id) else t :=
  Keyed.get?_foldl_put_filter (fun t => enter_id t toState (clock t.id)) due db.tenants id

theorem logOf_swept (db : Db) {t : TenantRow} {id : Uuid} (ht : db.tenants.get? id = some t) :
    logOf (db.swept toState clock (db.tenants.rows.filter due)).lifecycleEvents id
      = logOf db.lifecycleEvents id ++ if due t then [⟨t.lifecycleState, toState⟩] else [] := by
  have hrows : (db.tenants.rows.filter due).filter (fun t => t.id = id)
      = [t].filter due := by
    rw [List.filter_filter, List.filter_congr fun r _ => Bool.and_comm _ _, ← List.filter_filter,
      Keyed.filter_key db.tenants id, ht]
    rfl
  unfold logOf Db.swept
  rw [List.filter_append, List.map_append, List.filter_map]
  show _ ++ List.map _ (List.map _ ((db.tenants.rows.filter due).filter fun t => t.id = id)) = _
  rw [hrows]
  by_cases h : due t = true <;> simp [h, LifecycleEventRow.change, TenantRow.leaving]

/-- A sweep moves the tenants that are due and leaves the others. -/
theorem lifecycle?_swept {id : Uuid} {t : TenantRow} (ht : db.tenants.get? id = some t) :
    (db.swept toState clock (db.tenants.rows.filter due)).lifecycle? id =
      some (if due t then
          (t.enter toState (clock id)).lifecycle
            (logOf db.lifecycleEvents id ++ [⟨t.lifecycleState, toState⟩])
        else t.lifecycle (logOf db.lifecycleEvents id)) := by
  have hid : t.id = id := Db.id_of_tenant ht
  unfold Db.lifecycle?
  rw [tenants_swept, ht, Option.map_some, Option.map_some, logOf_swept due toState clock db ht, hid]
  by_cases h : due t = true <;> simp [h]

end

/-! ## Every operation is a move -/

section

variable {db : Db} {id : Uuid} {l : Lifecycle}

/-- What a sweep does to one tenant, with the guard of its query. -/
theorem lifecycle?_sweep (cfg : OffboardingSettings) (due : TenantRow → Bool)
    (toState : LifecycleState) (clock : Uuid → Timestamp) (move : Move)
    (hl : db.lifecycle? id = some l)
    (hdue : ∀ t log, l = t.lifecycle log → due t = true → l.Enabled cfg move)
    (hafter : ∀ (t : TenantRow) log, l = t.lifecycle log →
      (t.enter toState (clock id)).lifecycle (log ++ [⟨t.lifecycleState, toState⟩]) = l.after move) :
    (commit (OffboardingService.sweep due toState clock) db).lifecycle? id = some l ∨
      l.Enabled cfg move ∧
        (commit (OffboardingService.sweep due toState clock) db).lifecycle? id
          = some (l.after move) := by
  obtain ⟨t, ht, rfl⟩ := Option.map_eq_some_iff.mp hl
  rw [commit_of_ok (sweep_eq due toState clock db), lifecycle?_swept due toState clock ht]
  by_cases h : due t = true
  · right
    rw [if_pos h]
    exact ⟨hdue t _ rfl h, congrArg some (hafter t _ rfl)⟩
  · left
    rw [if_neg h]

/-- What a command of an operator does: it moves its own tenant and leaves the others. -/
theorem lifecycle?_command (cfg : OffboardingSettings) (x : PlatformCall Unit) (tenantId : Uuid)
    (move : Move) (hl : db.lifecycle? id = some l)
    (hx : ∀ u db', x db = .ok u db' → ∃ t t' e, db.tenants.get? tenantId = some t ∧
      t'.id = tenantId ∧ e.tenantId = t'.id ∧
      db'.lifecycle? = Db.lifecycle? { db with
        tenants := db.tenants.put t', lifecycleEvents := db.lifecycleEvents ++ [e] } ∧
      (∀ log, (t.lifecycle log).Enabled cfg move ∧
        t'.lifecycle (log ++ [e.change]) = (t.lifecycle log).after move)) :
    (commit x db).lifecycle? id = some l ∨
      tenantId = id ∧ l.Enabled cfg move ∧ (commit x db).lifecycle? id = some (l.after move) := by
  rcases commit_cases x db with ⟨u, db', hok, hcommit⟩ | hcommit
  · obtain ⟨t, t', e, ht, hid', hevent, hsame, hmove⟩ := hx u db' hok
    rw [hcommit, hsame, lifecycle?_put_event hevent hl, hid']
    by_cases h : tenantId = id
    · right
      subst h
      rw [Db.lifecycle?, ht, Option.map_some] at hl
      obtain rfl := Option.some.inj hl
      obtain ⟨henabled, hafter⟩ := hmove (logOf db.lifecycleEvents tenantId)
      rw [if_pos rfl]
      exact ⟨rfl, henabled, congrArg some hafter⟩
    · left
      rw [if_neg h]
  · left
    rw [hcommit]
    exact hl

/-- Writing a tenant twice is writing it once. -/
theorem lifecycle?_put_put {t t' : TenantRow} (h : t.id = t'.id) (events : List LifecycleEventRow) :
    Db.lifecycle? { db with tenants := (db.tenants.put t).put t', lifecycleEvents := events }
      = Db.lifecycle? { db with tenants := db.tenants.put t', lifecycleEvents := events } := by
  funext id
  show Option.map _ (((db.tenants.put t).put t').get? id) = Option.map _ ((db.tenants.put t').get? id)
  rw [Keyed.get?_put, Keyed.get?_put, Keyed.get?_put, h]
  by_cases hid : t'.id = id <;> simp [hid, Function.comp_def]

theorem lifecycle?_step (cfg : OffboardingSettings) (hl : db.lifecycle? id = some l)
    (op : OffboardingOp) :
    (op.step cfg db).lifecycle? id = some l ∨
      ∃ move, op.move? id = some move ∧ l.Enabled cfg move ∧
        (op.step cfg db).lifecycle? id = some (l.after move) := by
  cases op with
  | cancel m tenantId actorId reason =>
    have hcall := lifecycle?_command cfg (OffboardingService.cancel m tenantId actorId reason)
      tenantId (.cancel m.now) hl ?_
    · exact hcall.imp_right fun ⟨hid, h⟩ => ⟨_, if_pos hid, h⟩
    · intro u db' hok
      obtain ⟨t, ht, hactive, -, hbill⟩ := cancel_eq_ok.mp hok
      have hid : t.id = tenantId := Db.id_of_tenant ht
      refine ⟨t, t.enter .cancelled m.now, t.leaving .cancelled (some actorId) (some reason), ht,
        hid, rfl, ?_, fun log => ⟨hactive, rfl⟩⟩
      -- cancelling the subscription keeps the columns of offboarding
      cases hcurrent : t.currentSubscriptionId with
      | none =>
        rw [hcurrent] at hbill
        cases hbill
        rfl
      | some subscriptionId =>
        rw [hcurrent] at hbill
        exact (moves_lifecycle_cancelSubscription m subscriptionId _ false).ok hbill
  | restore m tenantId actorId =>
    have hcall := lifecycle?_command cfg (OffboardingService.restore m tenantId actorId) tenantId
      .restore hl ?_
    · exact hcall.imp_right fun ⟨hid, h⟩ => ⟨_, if_pos hid, h⟩
    · intro u db' hok
      obtain ⟨t, ht, hstate, -, -, rfl⟩ := restore_eq_ok.mp hok
      have hid : t.id = tenantId := Db.id_of_tenant ht
      have hid' : (t.enter .active m.now).id = t.restored.id := enter_id t .active m.now
      exact ⟨t, t.restored, t.leaving .active (some actorId) none, ht, hid, rfl,
        lifecycle?_put_put hid' _, fun log => ⟨hstate, rfl⟩⟩
  | extendRetention tenantId actorId holdUntil =>
    have hcall := lifecycle?_command cfg
      (OffboardingService.extendRetention tenantId actorId holdUntil) tenantId (.hold holdUntil) hl ?_
    · exact hcall.imp_right fun ⟨hid, h⟩ => ⟨_, if_pos hid, h⟩
    · intro u db' hok
      obtain ⟨t, ht, -, rfl⟩ := extendRetention_eq_ok.mp hok
      have hid : t.id = tenantId := Db.id_of_tenant ht
      exact ⟨t, { t with retentionHoldUntil := some holdUntil },
        { t.leaving t.lifecycleState (some actorId) (some "retention extended") with
          metadata := some holdUntil }, ht, hid, rfl, rfl, fun log => ⟨trivial, rfl⟩⟩
  | sweepCancelledToReadOnly now clock =>
    have hsweep := lifecycle?_sweep cfg (OffboardingService.dueReadOnly cfg now) .readOnly clock
      (.readOnly now (clock id)) hl ?_ ?_
    · exact hsweep.imp_right fun h => ⟨_, rfl, h⟩
    · rintro t log rfl hdue
      simp only [OffboardingService.dueReadOnly, Bool.and_eq_true, decide_eq_true_eq,
        Option.any_eq_true] at hdue
      obtain ⟨hstate, stamp, hstamp, hle⟩ := hdue
      exact ⟨hstate, stamp, hstamp, le_sub_iff_add_le.mp hle⟩
    · rintro t log rfl
      rfl
  | sweepReadOnlyToArchived now clock =>
    have hsweep := lifecycle?_sweep cfg (OffboardingService.dueArchived cfg now) .archived clock
      (.archive now (clock id)) hl ?_ ?_
    · exact hsweep.imp_right fun h => ⟨_, rfl, h⟩
    · rintro t log rfl hdue
      simp only [OffboardingService.dueArchived, Bool.and_eq_true, decide_eq_true_eq,
        Option.any_eq_true, Option.all_eq_true] at hdue
      obtain ⟨⟨hstate, stamp, hstamp, hle⟩, hhold⟩ := hdue
      exact ⟨hstate, ⟨stamp, hstamp, le_sub_iff_add_le.mp hle⟩, hhold⟩
    · rintro t log rfl
      rfl
  | sweepArchivedToHardDeleted now clock =>
    have hsweep := lifecycle?_sweep cfg (OffboardingService.dueHardDeleted cfg now) .hardDeleted
      clock (.hardDelete now) hl ?_ ?_
    · exact hsweep.imp_right fun h => ⟨_, rfl, h⟩
    · rintro t log rfl hdue
      simp only [OffboardingService.dueHardDeleted, Bool.and_eq_true, decide_eq_true_eq,
        Option.any_eq_true] at hdue
      obtain ⟨hstate, stamp, hstamp, hle⟩ := hdue
      exact ⟨hstate, stamp, hstamp, le_sub_iff_add_le.mp hle⟩
    · rintro t log rfl
      rfl

end

/-! ## The log, the state and the timestamps agree -/

/-- The tenant has not been offboarded before. -/
structure Lifecycle.Created (l : Lifecycle) : Prop where
  state : l.state = .active
  cancelledAt : l.cancelledAt = none
  readOnlyAt : l.readOnlyAt = none
  archivedAt : l.archivedAt = none
  log : l.log = []

/-- The log is a chain from `active` to the state, and a timestamp is set exactly when its state was
entered since the last event into `active`. -/
structure Lifecycle.Faithful (l : Lifecycle) : Prop where
  chain : Leads .active l.log l.state
  cancelledAt : l.cancelledAt.isSome ↔ EnteredSince .active .cancelled l.log
  readOnlyAt : l.readOnlyAt.isSome ↔ EnteredSince .active .readOnly l.log
  archivedAt : l.archivedAt.isSome ↔ EnteredSince .active .archived l.log

theorem Lifecycle.Created.faithful {l : Lifecycle} (h : l.Created) : l.Faithful where
  chain := by
    rw [h.log, h.state]
    rfl
  cancelledAt := by simp [h.cancelledAt, h.log]
  readOnlyAt := by simp [h.readOnlyAt, h.log]
  archivedAt := by simp [h.archivedAt, h.log]

theorem Lifecycle.Faithful.after {cfg : OffboardingSettings} {l : Lifecycle} (h : l.Faithful)
    {move : Move} (henabled : l.Enabled cfg move) : (l.after move).Faithful := by
  have hchain : ∀ s, Leads .active (l.log ++ [⟨l.state, s⟩]) s := fun s => h.chain.append rfl
  cases move with
  | cancel clock =>
    have hstate : l.state = .active := henabled
    refine ⟨hchain _, ?_, ?_, ?_⟩
    · simp [Lifecycle.after, enteredSince_append, hstate]
    · simp [Lifecycle.after, enteredSince_append, h.readOnlyAt]
    · simp [Lifecycle.after, enteredSince_append, h.archivedAt]
  | readOnly now clock =>
    have hstate : l.state = .cancelled := henabled.1
    refine ⟨hchain _, ?_, ?_, ?_⟩
    · simp [Lifecycle.after, enteredSince_append, h.cancelledAt]
    · simp [Lifecycle.after, enteredSince_append, hstate]
    · simp [Lifecycle.after, enteredSince_append, h.archivedAt]
  | archive now clock =>
    have hstate : l.state = .readOnly := henabled.1
    refine ⟨hchain _, ?_, ?_, ?_⟩
    · simp [Lifecycle.after, enteredSince_append, h.cancelledAt]
    · simp [Lifecycle.after, enteredSince_append, h.readOnlyAt]
    · simp [Lifecycle.after, enteredSince_append, hstate]
  | hardDelete now =>
    refine ⟨hchain _, ?_, ?_, ?_⟩
    · simp [Lifecycle.after, enteredSince_append, h.cancelledAt]
    · simp [Lifecycle.after, enteredSince_append, h.readOnlyAt]
    · simp [Lifecycle.after, enteredSince_append, h.archivedAt]
  | restore =>
    refine ⟨hchain _, ?_, ?_, ?_⟩
    all_goals simp [Lifecycle.after, enteredSince_append]
  | hold until_ =>
    -- an event that stays in `active` is an event into it; the timestamps are unset there
    have hactive : ∀ x, l.state = .active → ¬ EnteredSince .active x l.log :=
      fun x hstate => Leads.not_enteredSince (hstate ▸ h.chain) x
    have hstay : ∀ x, EnteredSince .active x (l.log ++ [⟨l.state, l.state⟩]) ↔
        EnteredSince .active x l.log := by
      intro x
      have hx := hactive x
      rw [enteredSince_append]
      by_cases hstate : l.state = .active
      · simp [hstate, hx hstate]
      · simp only [ne_eq, hstate, not_false_eq_true, true_and, and_not_self, or_false]
    refine ⟨hchain _, ?_, ?_, ?_⟩
    · exact h.cancelledAt.trans (hstay _).symm
    · exact h.readOnlyAt.trans (hstay _).symm
    · exact h.archivedAt.trans (hstay _).symm

/-- No move leads out of `hard_deleted`. -/
theorem Lifecycle.hardDeleted_after {cfg : OffboardingSettings} {l : Lifecycle} {move : Move}
    (h : l.state = .hardDeleted) (henabled : l.Enabled cfg move) :
    (l.after move).state = .hardDeleted := by
  cases move with
  | hold until_ => exact h
  | cancel clock => exact absurd (h.symm.trans henabled) (by decide)
  | readOnly now clock => exact absurd (h.symm.trans henabled.1) (by decide)
  | archive now clock => exact absurd (h.symm.trans henabled.1) (by decide)
  | hardDelete now => exact absurd (h.symm.trans henabled.1) (by decide)
  | restore =>
    have hmem : l.state ∈ OffboardingService.restorable := henabled
    rw [h] at hmem
    exact absurd hmem (by decide)

/-- What every move keeps, every run of the service keeps. -/
theorem lifecycle?_run {cfg : OffboardingSettings} {P : Lifecycle → Prop}
    (hmove : ∀ l move, P l → l.Enabled cfg move → P (l.after move)) {db : Db} {id : Uuid}
    {l : Lifecycle} (hl : db.lifecycle? id = some l) (h : P l) (ops : List OffboardingOp) :
    ∃ l', (run (OffboardingOp.step cfg) db ops).lifecycle? id = some l' ∧ P l' := by
  have hstep : ∀ (db : Db) op, (∃ l', db.lifecycle? id = some l' ∧ P l') →
      ∃ l', (OffboardingOp.step cfg db op).lifecycle? id = some l' ∧ P l' := by
    rintro db op ⟨l', hl', h'⟩
    rcases lifecycle?_step cfg hl' op with hsame | ⟨move, -, henabled, hafter⟩
    · exact ⟨l', hsame, h'⟩
    · exact ⟨_, hafter, hmove l' move h' henabled⟩
  exact run_invariant_of_step hstep ops ⟨l, hl, h⟩

/-- After any operations on any tenants, the log of a tenant that was created `active` is a chain
that ends in its state, its timestamps tell which states it has entered since it was last `active`,
and from `hard_deleted` no operation leads anywhere else. -/
theorem lifecycle_log_faithful (cfg : OffboardingSettings) {db : Db} {id : Uuid} {l : Lifecycle}
    (hl : db.lifecycle? id = some l) (hcreated : l.Created) (ops : List OffboardingOp) :
    ∃ l', (run (OffboardingOp.step cfg) db ops).lifecycle? id = some l' ∧ l'.Faithful ∧
      (l'.state = .hardDeleted → ∀ more, ∃ l'',
        (run (OffboardingOp.step cfg) db (ops ++ more)).lifecycle? id = some l'' ∧
          l''.state = .hardDeleted) := by
  obtain ⟨l', hl', hfaithful⟩ := lifecycle?_run
    (fun l move h henabled => h.after henabled) hl hcreated.faithful ops
  refine ⟨l', hl', hfaithful, ?_⟩
  intro hdeleted more
  rw [run_append]
  exact lifecycle?_run (P := fun l => l.state = .hardDeleted)
    (fun l move h henabled => Lifecycle.hardDeleted_after h henabled) hl' hdeleted more

theorem lifecycle_log_faithful_umoja :
    ∃ l, (run (OffboardingOp.step defaultSettings) freshDb
        [.cancel ⟨0, dayOne⟩ 1 9 "closing", .cancel ⟨1, dayOne⟩ 1 9 "again",
          .sweepCancelledToReadOnly (days 7) (fun _ => days 7), .extendRetention 1 9 (days 400),
          .restore ⟨days 9, dayOne⟩ 1 9]).lifecycle? 1 = some l ∧ l.Faithful ∧ l.log.length = 4 := by
  have hfresh : freshDb.lifecycle? 1 = some (freshTenant.lifecycle []) := rfl
  obtain ⟨l, hl, hfaithful, -⟩ := lifecycle_log_faithful defaultSettings hfresh
    ⟨rfl, rfl, rfl, rfl, rfl⟩
    [.cancel ⟨0, dayOne⟩ 1 9 "closing", .cancel ⟨1, dayOne⟩ 1 9 "again",
      .sweepCancelledToReadOnly (days 7) (fun _ => days 7), .extendRetention 1 9 (days 400),
      .restore ⟨days 9, dayOne⟩ 1 9]
  refine ⟨l, hl, hfaithful, ?_⟩
  have hlog := congrArg (fun o => o.map fun l => l.log.length) hl
  exact (Option.some.inj (hlog.symm.trans (by decide +kernel)))

end SaccoPlatform.Platform
