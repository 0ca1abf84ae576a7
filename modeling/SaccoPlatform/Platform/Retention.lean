import SaccoPlatform.Platform.Lifecycle

/-!
# Retention windows

Each sweep looks at the timestamp of the stage before it. Read along a run, the three windows add
up: a tenant is hard-deleted only after all three have passed since it was cancelled for the last
time, however often it was cancelled and restored before. A hold keeps a tenant from being
archived; hard deletion looks at `archived_at` alone.
-/

namespace SaccoPlatform.Platform

open Lib Session

/-- The lifecycle state of a tenant. -/
def Db.stateOf (db : Db) (id : Uuid) : Option LifecycleState := (db.lifecycle? id).map (·.state)

/-- The clock does not run backwards between the cutoff of a sweep and its stamps. -/
def OffboardingOp.Timely : OffboardingOp → Prop
  | .sweepCancelledToReadOnly now clock => ∀ id, now ≤ clock id
  | .sweepReadOnlyToArchived now clock => ∀ id, now ≤ clock id
  | .sweepArchivedToHardDeleted now clock => ∀ id, now ≤ clock id
  | _ => True

variable {cfg : OffboardingSettings} {db : Db} {id : Uuid}

/-- The tenant was last cancelled at `clock`: it was `active` until then and never again. -/
def CancelledSince (cfg : OffboardingSettings) (db : Db) (id : Uuid) (ops : List OffboardingOp)
    (clock : Timestamp) : Prop :=
  ∃ earlier m actorId reason later, ops = earlier ++ .cancel m id actorId reason :: later ∧
    m.now = clock ∧ (run (OffboardingOp.step cfg) db earlier).stateOf id = some .active ∧
    ∀ between, between <+: later →
      (run (OffboardingOp.step cfg) db
        (earlier ++ .cancel m id actorId reason :: between)).stateOf id ≠ some .active

theorem CancelledSince.append {ops : List OffboardingOp} {clock : Timestamp}
    (h : CancelledSince cfg db id ops clock) {op : OffboardingOp}
    (hop : (run (OffboardingOp.step cfg) db (ops ++ [op])).stateOf id ≠ some .active) :
    CancelledSince cfg db id (ops ++ [op]) clock := by
  obtain ⟨earlier, m, actorId, reason, later, rfl, hclock, hactive, hlater⟩ := h
  refine ⟨earlier, m, actorId, reason, later ++ [op], by simp, hclock, hactive, ?_⟩
  intro between hbetween
  rcases List.prefix_concat_iff.mp hbetween with rfl | hprefix
  · simpa using hop
  · exact hlater between hprefix

theorem cancelledSince_cancel {ops : List OffboardingOp} {m : Moment} {actorId : Uuid}
    {reason : String} (hactive : (run (OffboardingOp.step cfg) db ops).stateOf id = some .active)
    (hop : (run (OffboardingOp.step cfg) db (ops ++ [.cancel m id actorId reason])).stateOf id
      ≠ some .active) :
    CancelledSince cfg db id (ops ++ [.cancel m id actorId reason]) m.now := by
  refine ⟨ops, m, actorId, reason, [], rfl, rfl, hactive, ?_⟩
  intro between hbetween
  rw [List.prefix_nil.mp hbetween]
  exact hop

/-- How long ago the tenant was cancelled, by the timestamp of its stage. -/
def Windows (cfg : OffboardingSettings) (db : Db) (id : Uuid) (ops : List OffboardingOp)
    (l : Lifecycle) : Prop :=
  match l.state with
  | .cancelled => ∃ stamp, l.cancelledAt = some stamp ∧ CancelledSince cfg db id ops stamp
  | .readOnly => ∃ stamp since, l.readOnlyAt = some stamp ∧ CancelledSince cfg db id ops since ∧
      since + days cfg.readOnlyDays ≤ stamp
  | .archived => ∃ stamp since, l.archivedAt = some stamp ∧ CancelledSince cfg db id ops since ∧
      since + days cfg.readOnlyDays + days cfg.archiveDays ≤ stamp
  | .active => True
  | .hardDeleted => True

section

variable {ops : List OffboardingOp} {op : OffboardingOp} {l : Lifecycle}

/-- A tenant that stays in its stage, apart perhaps from its hold and its log. -/
theorem Windows.stay {l' : Lifecycle} (h : Windows cfg db id ops l) (hstate : l'.state = l.state)
    (hcancelledAt : l'.cancelledAt = l.cancelledAt) (hreadOnlyAt : l'.readOnlyAt = l.readOnlyAt)
    (harchivedAt : l'.archivedAt = l.archivedAt)
    (hl' : (run (OffboardingOp.step cfg) db (ops ++ [op])).lifecycle? id = some l') :
    Windows cfg db id (ops ++ [op]) l' := by
  have hsince : ∀ clock, l.state ≠ .active → CancelledSince cfg db id ops clock →
      CancelledSince cfg db id (ops ++ [op]) clock := by
    intro clock hne h
    apply h.append
    rw [Db.stateOf, hl', Option.map_some, hstate]
    simpa using hne
  unfold Windows at h ⊢
  rw [hstate, hcancelledAt, hreadOnlyAt, harchivedAt]
  cases hs : l.state with
  | active => trivial
  | hardDeleted => trivial
  | cancelled =>
    simp only [hs] at h
    obtain ⟨stamp, hstamp, h⟩ := h
    exact ⟨stamp, hstamp, hsince stamp (by simp [hs]) h⟩
  | readOnly =>
    simp only [hs] at h
    obtain ⟨stamp, since, hstamp, h, hle⟩ := h
    exact ⟨stamp, since, hstamp, hsince since (by simp [hs]) h, hle⟩
  | archived =>
    simp only [hs] at h
    obtain ⟨stamp, since, hstamp, h, hle⟩ := h
    exact ⟨stamp, since, hstamp, hsince since (by simp [hs]) h, hle⟩

theorem windows_append (hl : (run (OffboardingOp.step cfg) db ops).lifecycle? id = some l)
    (h : Windows cfg db id ops l) (htimely : op.Timely) :
    ∃ l', (run (OffboardingOp.step cfg) db (ops ++ [op])).lifecycle? id = some l' ∧
      Windows cfg db id (ops ++ [op]) l' := by
  have hrun : run (OffboardingOp.step cfg) db (ops ++ [op])
      = op.step cfg (run (OffboardingOp.step cfg) db ops) := run_append _ _ _ _
  rcases lifecycle?_step cfg hl op with hsame | ⟨move, hmove, henabled, hafter⟩
  · rw [← hrun] at hsame
    exact ⟨l, hsame, h.stay rfl rfl rfl rfl hsame⟩
  rw [← hrun] at hafter
  refine ⟨l.after move, hafter, ?_⟩
  have hstate : (run (OffboardingOp.step cfg) db (ops ++ [op])).stateOf id
      = some (l.after move).state := by rw [Db.stateOf, hafter, Option.map_some]
  cases move with
  | cancel clock =>
    obtain ⟨m, actorId, reason, rfl, rfl⟩ := eq_cancel_of_move? hmove
    have hactive : (run (OffboardingOp.step cfg) db ops).stateOf id = some .active := by
      rw [Db.stateOf, hl, Option.map_some, henabled]
    refine ⟨m.now, rfl, cancelledSince_cancel hactive ?_⟩
    rw [hstate]
    simp [Lifecycle.after]
  | readOnly now clock =>
    obtain ⟨read, rfl, rfl⟩ := eq_sweep_of_move?_readOnly hmove
    obtain ⟨hcancelled, stamp, hstamp, hdue⟩ := henabled
    simp only [Windows, hcancelled] at h
    obtain ⟨since, hsince, h⟩ := h
    rw [hstamp, Option.some.injEq] at hsince
    subst hsince
    refine ⟨read id, stamp, rfl, h.append ?_, hdue.trans (htimely id)⟩
    rw [hstate]
    simp [Lifecycle.after]
  | archive now clock =>
    obtain ⟨read, rfl, rfl⟩ := eq_sweep_of_move?_archive hmove
    obtain ⟨hreadOnly, ⟨stamp, hstamp, hdue⟩, -⟩ := henabled
    simp only [Windows, hreadOnly] at h
    obtain ⟨stamp', since, hstamp', h, hle⟩ := h
    rw [hstamp, Option.some.injEq] at hstamp'
    subst hstamp'
    refine ⟨read id, since, rfl, h.append ?_, ?_⟩
    · rw [hstate]
      simp [Lifecycle.after]
    · exact (add_le_add_left hle _).trans (hdue.trans (htimely id))
  | hardDelete now => trivial
  | restore => trivial
  | hold until_ => exact h.stay rfl rfl rfl rfl hafter

theorem windows_run {l₀ : Lifecycle} (hl₀ : db.lifecycle? id = some l₀) (hcreated : l₀.Created)
    (htimely : ∀ op ∈ ops, op.Timely) :
    ∃ l, (run (OffboardingOp.step cfg) db ops).lifecycle? id = some l ∧
      Windows cfg db id ops l := by
  induction ops using List.reverseRecOn with
  | nil =>
    refine ⟨l₀, hl₀, ?_⟩
    simp only [Windows, hcreated.state]
  | append_singleton ops op ih =>
    obtain ⟨l, hl, hwindows⟩ := ih fun op hop => htimely op (List.mem_append_left _ hop)
    exact windows_append hl hwindows (htimely op (by simp))

end

/-- The total of the three windows. -/
def OffboardingSettings.total (cfg : OffboardingSettings) : ℤ :=
  cfg.readOnlyDays + cfg.archiveDays + cfg.hardDeleteDays

theorem days_total (cfg : OffboardingSettings) :
    days cfg.total = days cfg.readOnlyDays + days cfg.archiveDays + days cfg.hardDeleteDays := by
  unfold days OffboardingSettings.total
  ring

/-! ## Entering a stage -/

section

variable {l : Lifecycle} {move : Move}

/-- Only one move enters `hard_deleted`. -/
theorem Lifecycle.eq_hardDelete (hstate : l.state ≠ .hardDeleted)
    (hafter : (l.after move).state = .hardDeleted) : ∃ now, move = .hardDelete now := by
  cases move with
  | hardDelete now => exact ⟨now, rfl⟩
  | hold until_ => exact absurd hafter hstate
  | _ => simp [Lifecycle.after] at hafter

/-- Only one move enters `archived`. -/
theorem Lifecycle.eq_archive (hstate : l.state ≠ .archived)
    (hafter : (l.after move).state = .archived) : ∃ now clock, move = .archive now clock := by
  cases move with
  | archive now clock => exact ⟨now, clock, rfl⟩
  | hold until_ => exact absurd hafter hstate
  | _ => simp [Lifecycle.after] at hafter

/-- The sweep takes every tenant that was archived long enough ago, whatever its hold. -/
theorem hardDeleted_of_due (cfg : OffboardingSettings) {db : Db} {id : Uuid}
    (hl : db.lifecycle? id = some l) {now stamp : Timestamp} (clock : Uuid → Timestamp)
    (hstate : l.state = .archived)
    (hstamp : l.archivedAt = some stamp) (hdue : stamp + days cfg.hardDeleteDays ≤ now) :
    ((OffboardingOp.sweepArchivedToHardDeleted now clock).step cfg db).stateOf id
      = some .hardDeleted := by
  obtain ⟨t, ht, rfl⟩ := Option.map_eq_some_iff.mp hl
  have htrue : OffboardingService.dueHardDeleted cfg now t = true := by
    have hcutoff : stamp ≤ now - days cfg.hardDeleteDays := le_sub_iff_add_le.mpr hdue
    have hstate' : t.lifecycleState = .archived := hstate
    have hstamp' : t.archivedAt = some stamp := hstamp
    simp [OffboardingService.dueHardDeleted, hstate', hstamp', hcutoff]
  show Db.stateOf (commit (OffboardingService.sweep _ .hardDeleted clock) db) id = _
  rw [Db.stateOf, commit_of_ok (sweep_eq _ _ clock db), lifecycle?_swept _ _ clock ht, if_pos htrue]
  rfl

/-- What the sweep hard-deletes was archived long enough ago. -/
theorem due_of_hardDeleted {cfg : OffboardingSettings} {db : Db} {id : Uuid} {l l' : Lifecycle}
    {ops : List OffboardingOp} {op : OffboardingOp} {now : Timestamp} {clock : Uuid → Timestamp}
    (hl : (run (OffboardingOp.step cfg) db ops).lifecycle? id = some l)
    (hl' : (run (OffboardingOp.step cfg) db (ops ++ [op])).lifecycle? id = some l')
    (hop : op = .sweepArchivedToHardDeleted now clock) (hne : l.state ≠ .hardDeleted)
    (hgone : l'.state = .hardDeleted) :
    ∃ stamp, l.state = .archived ∧ l.archivedAt = some stamp ∧
      stamp + days cfg.hardDeleteDays ≤ now := by
  rw [run_append] at hl'
  rcases lifecycle?_step cfg hl op with hsame | ⟨move, hmove, henabled, hafter⟩
  · rw [show l' = l from Option.some.inj (hl'.symm.trans hsame)] at hgone
    exact absurd hgone hne
  · rw [show l' = l.after move from Option.some.inj (hl'.symm.trans hafter)] at hgone
    obtain ⟨now', rfl⟩ := Lifecycle.eq_hardDelete hne hgone
    obtain ⟨clock', hop'⟩ := eq_sweep_of_move?_hardDelete hmove
    rw [hop'] at hop
    cases hop
    obtain ⟨hstate, stamp, hstamp, hdue⟩ := henabled
    exact ⟨stamp, hstate, hstamp, hdue⟩

end

/-- In every run from the creation of a tenant: it is hard-deleted only when all three windows have
passed since it was last cancelled, and archived only when no hold is pending. Hard deletion looks
at `archived_at` alone, so a hold that is set later does not stop it. -/
theorem retention_windows (cfg : OffboardingSettings) {db : Db} {id : Uuid} {l₀ : Lifecycle}
    (hl₀ : db.lifecycle? id = some l₀) (hcreated : l₀.Created) (ops : List OffboardingOp)
    (htimely : ∀ op ∈ ops, op.Timely) (op : OffboardingOp) :
    ∃ l l', (run (OffboardingOp.step cfg) db ops).lifecycle? id = some l ∧
      (run (OffboardingOp.step cfg) db (ops ++ [op])).lifecycle? id = some l' ∧
      (l.state ≠ .hardDeleted → l'.state = .hardDeleted →
        ∃ now clock since, op = .sweepArchivedToHardDeleted now clock ∧
          CancelledSince cfg db id ops since ∧ since + days cfg.total ≤ now) ∧
      (l.state ≠ .archived → l'.state = .archived →
        ∃ now clock, op = .sweepReadOnlyToArchived now clock ∧
          ∀ hold, l.holdUntil = some hold → hold ≤ now) ∧
      (∀ now clock stamp, op = .sweepArchivedToHardDeleted now clock → l.state = .archived →
        l.archivedAt = some stamp → stamp + days cfg.hardDeleteDays ≤ now →
        l'.state = .hardDeleted) := by
  obtain ⟨l, hl, hwindows⟩ := windows_run hl₀ hcreated htimely
  have hrun : run (OffboardingOp.step cfg) db (ops ++ [op])
      = op.step cfg (run (OffboardingOp.step cfg) db ops) := run_append _ _ _ _
  -- a hold does not stop the last sweep
  have hlast : ∀ l', (run (OffboardingOp.step cfg) db (ops ++ [op])).lifecycle? id = some l' →
      ∀ now clock stamp, op = .sweepArchivedToHardDeleted now clock → l.state = .archived →
        l.archivedAt = some stamp → stamp + days cfg.hardDeleteDays ≤ now →
        l'.state = .hardDeleted := by
    rintro l' hl' now clock stamp rfl hstate hstamp hdue
    have hdeleted := hardDeleted_of_due cfg hl clock hstate hstamp hdue
    rw [← hrun, Db.stateOf, hl'] at hdeleted
    exact Option.some.inj hdeleted
  rcases lifecycle?_step cfg hl op with hsame | ⟨move, hmove, henabled, hafter⟩
  · rw [← hrun] at hsame
    exact ⟨l, l, hl, hsame, fun hne h => absurd h hne, fun hne h => absurd h hne, hlast l hsame⟩
  · rw [← hrun] at hafter
    refine ⟨l, l.after move, hl, hafter, ?_, ?_, hlast _ hafter⟩
    · intro hne hdeleted
      obtain ⟨now, rfl⟩ := Lifecycle.eq_hardDelete hne hdeleted
      obtain ⟨clock, rfl⟩ := eq_sweep_of_move?_hardDelete hmove
      obtain ⟨hstate, stamp, hstamp, hdue⟩ := henabled
      simp only [Windows, hstate] at hwindows
      obtain ⟨stamp', since, hstamp', hsince, hle⟩ := hwindows
      rw [hstamp, Option.some.injEq] at hstamp'
      subst hstamp'
      refine ⟨now, clock, since, rfl, hsince, ?_⟩
      rw [days_total, ← add_assoc, ← add_assoc]
      exact (add_le_add_left hle _).trans hdue
    · intro hne harchived
      obtain ⟨now, stamp, rfl⟩ := Lifecycle.eq_archive hne harchived
      obtain ⟨clock, rfl, -⟩ := eq_sweep_of_move?_archive hmove
      exact ⟨now, clock, rfl, henabled.2.2⟩

/-- A hold of the tenant is unset or already past at `now`. -/
def Lifecycle.Released (l : Lifecycle) (now : Timestamp) : Prop :=
  ∀ hold, l.holdUntil = some hold → hold ≤ now

/-- With `op` after `ops` the tenant enters `hard_deleted` only when all three windows have passed
since it was cancelled for the last time, and it enters `archived` or `hard_deleted` only when no
hold is pending. -/
def Honoured (cfg : OffboardingSettings) (db : Db) (id : Uuid) (ops : List OffboardingOp)
    (op : OffboardingOp) : Prop :=
  ∀ l l', (run (OffboardingOp.step cfg) db ops).lifecycle? id = some l →
    (run (OffboardingOp.step cfg) db (ops ++ [op])).lifecycle? id = some l' →
    (l.state ≠ .hardDeleted → l'.state = .hardDeleted →
      ∃ now clock since, op = .sweepArchivedToHardDeleted now clock ∧
        CancelledSince cfg db id ops since ∧ since + days cfg.total ≤ now ∧ l.Released now) ∧
    (l.state ≠ .archived → l'.state = .archived →
      ∃ now clock, op = .sweepReadOnlyToArchived now clock ∧ l.Released now)

/-- No hold is pending when the tenant is due for hard deletion. -/
def ReleasedWhenDue (cfg : OffboardingSettings) (db : Db) (id : Uuid) (op : OffboardingOp) : Prop :=
  ∀ now clock l stamp, op = .sweepArchivedToHardDeleted now clock → db.lifecycle? id = some l →
    l.state = .archived → l.archivedAt = some stamp → stamp + days cfg.hardDeleteDays ≤ now →
    l.Released now

/-- In every run from the creation of a tenant, retention is honoured by every step if and only if
no hard-deletion sweep comes upon it with a pending hold. -/
theorem retention_honoured_iff (cfg : OffboardingSettings) {db : Db} {id : Uuid} {l₀ : Lifecycle}
    (hl₀ : db.lifecycle? id = some l₀) (hcreated : l₀.Created) (ops : List OffboardingOp)
    (htimely : ∀ op ∈ ops, op.Timely) :
    (∀ before op after, ops = before ++ op :: after → Honoured cfg db id before op) ↔
      ∀ before op after, ops = before ++ op :: after →
        ReleasedWhenDue cfg (run (OffboardingOp.step cfg) db before) id op := by
  have hstep : ∀ before op after, ops = before ++ op :: after →
      (Honoured cfg db id before op ↔
        ReleasedWhenDue cfg (run (OffboardingOp.step cfg) db before) id op) := by
    intro before op after hops
    have hbefore : ∀ op' ∈ before, op'.Timely := fun op' hop' =>
      htimely op' (hops ▸ List.mem_append_left _ hop')
    obtain ⟨l, l', hl, hl', hdeleted, harchived, hdue⟩ :=
      retention_windows cfg hl₀ hcreated before hbefore op
    constructor
    · rintro hhonoured now clock m stamp rfl hm hstate hstamp hle
      obtain rfl : l = m := Option.some.inj (hl.symm.trans hm)
      have hgone : l'.state = .hardDeleted := hdue now clock stamp rfl hstate hstamp hle
      obtain ⟨now', clock', since, hop, -, -, hreleased⟩ :=
        (hhonoured l l' hl hl').1 (by simp [hstate]) hgone
      cases hop
      exact hreleased
    · intro hreleased m m' hm hm'
      obtain rfl : l = m := Option.some.inj (hl.symm.trans hm)
      obtain rfl : l' = m' := Option.some.inj (hl'.symm.trans hm')
      refine ⟨fun hne hgone => ?_, harchived⟩
      obtain ⟨now, clock, since, hop, hsince, hle⟩ := hdeleted hne hgone
      obtain ⟨stamp, hstate, hstamp, hpast⟩ := due_of_hardDeleted hl hl' hop hne hgone
      exact ⟨now, clock, since, hop, hsince, hle,
        hreleased now clock l stamp hop hl hstate hstamp hpast⟩
  constructor
  · intro h before op after hops
    exact (hstep before op after hops).mp (h before op after hops)
  · intro h before op after hops
    exact (hstep before op after hops).mpr (h before op after hops)

/-- A tenant is cancelled, archived after 90 days and then held for more than ten years. -/
def heldAfterArchiving : List OffboardingOp :=
  [.cancel ⟨0, dayOne⟩ 1 9 "closing", .sweepCancelledToReadOnly (days 7) (fun _ => days 7),
    .sweepReadOnlyToArchived (days 90) (fun _ => days 90), .extendRetention 1 9 (days 4000)]

/-- The sweep of the day on which the hold ends finds nothing pending. -/
theorem retention_honoured_umoja :
    Honoured defaultSettings freshDb 1 heldAfterArchiving
      (.sweepArchivedToHardDeleted (days 4000) fun _ => days 4000) := by
  have hfresh : freshDb.lifecycle? 1 = some (freshTenant.lifecycle []) := rfl
  refine (retention_honoured_iff defaultSettings hfresh ⟨rfl, rfl, rfl, rfl, rfl⟩
    (heldAfterArchiving ++ [.sweepArchivedToHardDeleted (days 4000) fun _ => days 4000])
    (by simp [heldAfterArchiving, OffboardingOp.Timely])).mpr ?_ _ _ [] rfl
  rintro before op after hops now clock l stamp rfl hl - - - hold hhold
  -- the sweep is the last operation
  rcases List.eq_nil_or_concat' after with rfl | ⟨rest, last, rfl⟩
  · obtain ⟨rfl, hlast⟩ := List.append_inj' hops rfl
    cases hlast
    have hbefore : ((run (OffboardingOp.step defaultSettings) freshDb heldAfterArchiving).lifecycle?
        1).map (·.holdUntil) = some (some (days 4000)) := by decide +kernel
    rw [hl, Option.map_some, hhold, Option.some.injEq, Option.some.injEq] at hbefore
    exact hbefore.le
  · rw [← List.cons_append, ← List.append_assoc] at hops
    have hmem := (List.append_inj' hops rfl).1 ▸ List.mem_append_right before List.mem_cons_self
    simp [heldAfterArchiving] at hmem

/-- The hold is pending, and the tenant is hard-deleted all the same. -/
theorem hold_ignored_by_hard_deletion :
    ∃ l, (run (OffboardingOp.step defaultSettings) freshDb heldAfterArchiving).lifecycle? 1 = some l ∧
      l.state = .archived ∧ l.holdUntil = some (days 4000) ∧ days 2645 < days 4000 ∧
      (run (OffboardingOp.step defaultSettings) freshDb (heldAfterArchiving ++
        [.sweepArchivedToHardDeleted (days 2645) fun _ => days 2645])).stateOf 1
          = some .hardDeleted := by
  refine ⟨⟨.archived, some 0, some (days 7), some (days 90), some (days 4000),
    [⟨.active, .cancelled⟩, ⟨.cancelled, .readOnly⟩, ⟨.readOnly, .archived⟩,
      ⟨.archived, .archived⟩]⟩, ?_⟩
  decide +kernel

end SaccoPlatform.Platform
