import SaccoPlatform.Lib.Keyed
import SaccoPlatform.Lib.Recovery

/-!
# Restore drills

The table `platform.backup_verifications`, which three parties write: the endpoint
`trigger_verification` with `OpsService` (`app/platform_/ops`), the script
`poll-verify-requests.sh` that cron starts every minute, and the drill `restore-staging.sh` that the
poller and cron start (`infra/backups`). Each statement of a script and each of the two statements of
the endpoint is a step of its own, and steps come in any order.

A row that is `requested` or `running` lets the endpoint refuse further requests. Only the drill that
holds a row ends it, so a drill that is killed between its two updates leaves a row that blocks the
endpoint for good.
-/

namespace SaccoPlatform.Ops

open Lib

inductive VerificationStatus where
  | requested | running | passed | failed
deriving DecidableEq, Repr

structure BackupVerification where
  id : ℕ
  requestedBy : Option ℕ
  status : VerificationStatus
  detail : Option String
  startedAt : Option ℤ
  finishedAt : Option ℤ
  createdAt : ℤ
deriving DecidableEq, Repr

namespace BackupVerification

/-- `status IN ('requested', 'running')`. -/
def pending (r : BackupVerification) : Bool := r.status = .requested || r.status = .running

/-- `claim_verification`, whatever the status was. -/
def claim (id : ℕ) (now : ℤ) (r : BackupVerification) : BackupVerification :=
  if r.id = id then { r with status := .running, startedAt := some now } else r

/-- `finish_verification`. -/
def finish (id : ℕ) (status : VerificationStatus) (detail : String) (now : ℤ)
    (r : BackupVerification) : BackupVerification :=
  if r.id = id then { r with status := status, finishedAt := some now, detail := some detail } else r

@[simp] theorem id_claim (id : ℕ) (now : ℤ) (r : BackupVerification) : (r.claim id now).id = r.id := by
  unfold claim
  split <;> rfl

@[simp] theorem id_finish (id : ℕ) (status : VerificationStatus) (detail : String) (now : ℤ)
    (r : BackupVerification) : (r.finish id status detail now).id = r.id := by
  unfold finish
  split <;> rfl

end BackupVerification

/-- What a script knows: the poller the id that it read, or a scheduled drill the id of the row that
it inserted, before the row is claimed, and the drill its `VERIFY_ID` from then on. -/
inductive Script where
  | claiming (id : ℕ)
  | drilling (id : ℕ)
deriving DecidableEq, Repr

def Script.verifyId : Script → ℕ
  | claiming id => id
  | drilling id => id

/-- The table, the requests that found nothing in progress and have not inserted yet, and the scripts
that run. -/
structure OpsWorld where
  clock : ℤ
  verifications : Keyed BackupVerification.id
  requests : ℕ → Option ℕ
  scripts : Keyed (Prod.fst : ℕ × Script → ℕ)

/-- How a drill that reports ends: with `finish_verification ... passed`, or by `fail`. -/
inductive Verdict where
  | passed (detail : String)
  | failed (detail : String)
deriving DecidableEq, Repr

def Verdict.status : Verdict → VerificationStatus
  | passed _ => .passed
  | failed _ => .failed

def Verdict.detail : Verdict → String
  | passed d => d
  | failed d => d

inductive OpsAction where
  | wait (duration : ℕ)
  /-- The first statement of `request_verification`. -/
  | check (request user : ℕ)
  /-- The second one, with the commit. -/
  | insert (request : ℕ)
  | poll (id : ℕ)
  | schedule
  | claim (script : ℕ)
  | finish (script : ℕ) (verdict : Verdict)
  /-- The script is killed, or a statement of it fails that nobody looks after. -/
  | die (script : ℕ)

namespace OpsWorld

def start (clock : ℤ) : OpsWorld :=
  ⟨clock, ⟨[], List.nodup_nil⟩, fun _ => none, ⟨[], List.nodup_nil⟩⟩

/-- `VerificationInProgress` is raised. -/
def inProgress (w : OpsWorld) : Bool := w.verifications.rows.any (·.pending)

/-- The row is the first of `WHERE status='requested' ORDER BY created_at`, or one of the first. -/
def isNext (w : OpsWorld) (id : ℕ) : Bool :=
  w.verifications.rows.any fun r => r.id = id && r.status = .requested &&
    w.verifications.rows.all fun r' => r'.status ≠ .requested || r.createdAt ≤ r'.createdAt

/-- `request_verification`, up to the insert. -/
def check (w : OpsWorld) (request user : ℕ) : OpsWorld :=
  if w.inProgress then w
  else { w with requests := Function.update w.requests request (some user) }

def insertRow (w : OpsWorld) (requestedBy : Option ℕ) : OpsWorld :=
  { w with
    verifications := w.verifications.insertNew
      (fun id => ⟨id, requestedBy, .requested, none, none, none, w.clock⟩) fun _ => rfl }

/-- The insert of `request_verification`. -/
def insert (w : OpsWorld) (request : ℕ) : OpsWorld :=
  match w.requests request with
  | none => w
  | some user =>
    { w with requests := Function.update w.requests request none }.insertRow (some user)

def launch (w : OpsWorld) (script : Script) : OpsWorld :=
  { w with scripts := w.scripts.insertNew (fun n => (n, script)) fun _ => rfl }

/-- The `SELECT` of `poll-verify-requests.sh`; without a row it exits. -/
def poll (w : OpsWorld) (id : ℕ) : OpsWorld := if w.isNext id then w.launch (.claiming id) else w

/-- `restore-staging.sh` without an argument, up to `insert_scheduled_verification`. -/
def schedule (w : OpsWorld) : OpsWorld := (w.insertRow none).launch (.claiming w.verifications.fresh)

def claim (w : OpsWorld) (script : ℕ) : OpsWorld :=
  match w.scripts.get? script with
  | some (_, .claiming id) =>
    { w with
      verifications := w.verifications.mapRows (.claim id w.clock) (BackupVerification.id_claim id _)
      scripts := w.scripts.put (script, .drilling id) }
  | _ => w

def finish (w : OpsWorld) (script : ℕ) (verdict : Verdict) : OpsWorld :=
  match w.scripts.get? script with
  | some (_, .drilling id) =>
    { w with
      verifications := w.verifications.mapRows (.finish id verdict.status verdict.detail w.clock)
        (BackupVerification.id_finish id _ _ _)
      scripts := w.scripts.erase script }
  | _ => w

def die (w : OpsWorld) (script : ℕ) : OpsWorld := { w with scripts := w.scripts.erase script }

def step (w : OpsWorld) : OpsAction → OpsWorld
  | .wait duration => { w with clock := w.clock + duration }
  | .check request user => w.check request user
  | .insert request => w.insert request
  | .poll id => w.poll id
  | .schedule => w.schedule
  | .claim script => w.claim script
  | .finish script verdict => w.finish script verdict
  | .die script => w.die script

/-! ## Rows that nobody ends -/

/-- A script that runs may still report about the row. -/
def Held (w : OpsWorld) (id : ℕ) : Prop := ∃ s ∈ w.scripts.rows, s.2.verifyId = id

/-- A row is `running`, and no script holds it. -/
def Stuck (w : OpsWorld) : Prop :=
  ∃ r ∈ w.verifications.rows, r.status = .running ∧ ¬ w.Held r.id

/-- The last script that holds a `running` row dies. -/
def Orphans (w : OpsWorld) (a : OpsAction) : Prop :=
  ∃ s ∈ w.scripts.rows, a = .die s.1 ∧
    (∃ r ∈ w.verifications.rows, r.status = .running ∧ r.id = s.2.verifyId) ∧
    ∀ s' ∈ w.scripts.rows, s'.1 ≠ s.1 → s'.2.verifyId ≠ s.2.verifyId

/-- The rows that keep the endpoint from accepting a request. -/
def left (w : OpsWorld) : ℕ := w.verifications.rows.countP (·.pending)

theorem left_eq_zero {w : OpsWorld} : w.left = 0 ↔ w.inProgress = false := by
  simp [left, inProgress, List.countP_eq_zero]

section

variable {w : OpsWorld}

theorem stuck_insertRow (requestedBy : Option ℕ) : (w.insertRow requestedBy).Stuck ↔ w.Stuck := by
  constructor
  · rintro ⟨r, hr, hrunning, hfree⟩
    rcases List.mem_append.mp hr with hr | hnew
    · exact ⟨r, hr, hrunning, hfree⟩
    · rw [List.mem_singleton.mp hnew] at hrunning
      cases hrunning
  · rintro ⟨r, hr, hrunning, hfree⟩
    exact ⟨r, List.mem_append_left _ hr, hrunning, hfree⟩

theorem held_launch {s : Script} {id : ℕ} : (w.launch s).Held id ↔ w.Held id ∨ s.verifyId = id := by
  show (∃ s' ∈ w.scripts.rows ++ [(w.scripts.fresh, s)], s'.2.verifyId = id) ↔ _
  simp [Held, or_and_right, exists_or]

/-- A new script changes nothing for the rows that run. -/
theorem stuck_launch {s : Script}
    (hs : ∀ r ∈ w.verifications.rows, r.status = .running → r.id ≠ s.verifyId) :
    (w.launch s).Stuck ↔ w.Stuck := by
  constructor
  · rintro ⟨r, hr, hrunning, hfree⟩
    exact ⟨r, hr, hrunning, fun hheld => hfree (held_launch.mpr (.inl hheld))⟩
  · rintro ⟨r, hr, hrunning, hfree⟩
    refine ⟨r, hr, hrunning, fun hheld => ?_⟩
    rcases held_launch.mp hheld with hheld | hsame
    · exact hfree hheld
    · exact hs r hr hrunning hsame.symm

theorem stuck_poll (id : ℕ) : (w.poll id).Stuck ↔ w.Stuck := by
  unfold poll
  split
  · rename_i hnext
    refine stuck_launch ?_
    intro r hr hrunning hid
    -- the row that the poller reads is `requested`
    obtain ⟨r', hr', hfirst⟩ := List.any_eq_true.mp hnext
    simp only [Bool.and_eq_true, decide_eq_true_eq] at hfirst
    have hsame : r = r' := w.verifications.eq_of_key hr hr' (hid.trans hfirst.1.1.symm)
    rw [hsame, hfirst.1.2] at hrunning
    cases hrunning
  · exact Iff.rfl

theorem stuck_schedule : w.schedule.Stuck ↔ w.Stuck := by
  unfold schedule
  rw [stuck_launch, stuck_insertRow]
  intro r hr hrunning
  rcases List.mem_append.mp hr with hr | hnew
  · exact (Keyed.lt_fresh hr).ne
  · rw [List.mem_singleton.mp hnew] at hrunning
    cases hrunning

/-- A script that goes on holds the row that it held. -/
theorem held_put {n : ℕ} {s s' : Script} (hs : (n, s) ∈ w.scripts.rows)
    (hsame : s'.verifyId = s.verifyId) (id : ℕ) :
    (∃ q ∈ (w.scripts.put (n, s')).rows, q.2.verifyId = id) ↔ w.Held id := by
  have hmap : (w.scripts.put (n, s')).rows.map (fun q => (q.1, q.2.verifyId))
      = w.scripts.rows.map fun q => (q.1, q.2.verifyId) :=
    Keyed.map_put (f := fun q : ℕ × Script => (q.1, q.2.verifyId)) (g := Prod.fst) (fun _ => rfl)
      (List.mem_map.mpr ⟨(n, s), hs, by rw [hsame]⟩)
  have hany : ∀ qs : List (ℕ × Script), (∃ q ∈ qs, q.2.verifyId = id) ↔
      ∃ x ∈ qs.map (fun q => (q.1, q.2.verifyId)), x.2 = id := by
    intro qs
    simp
  rw [hany, hmap, ← hany]
  rfl

theorem stuck_claim (n : ℕ) : (w.claim n).Stuck ↔ w.Stuck := by
  unfold claim
  split
  · rename_i m id hn
    have hmem := Keyed.mem_of_get? hn
    obtain rfl : m = n := Keyed.key_of_get? hn
    have hheld : ∀ k, (∃ q ∈ (w.scripts.put (m, .drilling id)).rows, q.2.verifyId = k) ↔ w.Held k :=
      held_put hmem rfl
    -- the row that is claimed is held, before and after
    have hid : w.Held id := ⟨(m, .claiming id), hmem, rfl⟩
    constructor
    · rintro ⟨r', hr', hrunning, hfree⟩
      obtain ⟨r, hr, rfl⟩ := List.mem_map.mp hr'
      have hne : r.id ≠ id := by
        intro heq
        exact hfree ((hheld _).mpr (by rw [BackupVerification.id_claim, heq]; exact hid))
      rw [BackupVerification.claim, if_neg hne] at hrunning hfree
      exact ⟨r, hr, hrunning, fun h => hfree ((hheld _).mpr h)⟩
    · rintro ⟨r, hr, hrunning, hfree⟩
      have hne : r.id ≠ id := fun heq => hfree (heq ▸ hid)
      have hsame : r.claim id w.clock = r := if_neg hne
      exact ⟨r, List.mem_map.mpr ⟨r, hr, hsame⟩, hrunning, fun h => hfree ((hheld _).mp h)⟩
  · exact Iff.rfl

theorem stuck_finish (n : ℕ) (verdict : Verdict) : (w.finish n verdict).Stuck ↔ w.Stuck := by
  unfold finish
  split
  · rename_i m id hn
    have hmem := Keyed.mem_of_get? hn
    obtain rfl : m = n := Keyed.key_of_get? hn
    constructor
    · rintro ⟨r', hr', hrunning, hfree⟩
      obtain ⟨r, hr, rfl⟩ := List.mem_map.mp hr'
      have hne : r.id ≠ id := by
        intro heq
        rw [BackupVerification.finish, if_pos heq] at hrunning
        cases verdict <;> cases hrunning
      rw [BackupVerification.finish, if_neg hne] at hrunning hfree
      refine ⟨r, hr, hrunning, ?_⟩
      rintro ⟨s, hs, hsid⟩
      -- a script that holds another row is another script
      refine hfree ⟨s, Keyed.mem_erase.mpr ⟨hs, fun heq => hne ?_⟩, hsid⟩
      rw [← hsid, w.scripts.eq_of_key hs hmem heq]
      rfl
    · rintro ⟨r, hr, hrunning, hfree⟩
      have hne : r.id ≠ id := fun heq => hfree ⟨(m, .drilling id), hmem, heq.symm⟩
      have hsame : r.finish id verdict.status verdict.detail w.clock = r := if_neg hne
      refine ⟨r, List.mem_map.mpr ⟨r, hr, hsame⟩, hrunning, ?_⟩
      rintro ⟨s, hs, hsid⟩
      exact hfree ⟨s, (Keyed.mem_erase.mp hs).1, hsid⟩
  · exact Iff.rfl

theorem stuck_die (n : ℕ) : (w.die n).Stuck ↔ w.Stuck ∨ w.Orphans (.die n) := by
  constructor
  · rintro ⟨r, hr, hrunning, hfree⟩
    by_cases hheld : w.Held r.id
    · right
      obtain ⟨s, hs, hsid⟩ := hheld
      -- whoever held the row is the script that died
      have hdied : ∀ s' ∈ w.scripts.rows, s'.2.verifyId = r.id → s'.1 = n := by
        intro s' hs' hid
        by_contra hne
        exact hfree ⟨s', Keyed.mem_erase.mpr ⟨hs', hne⟩, hid⟩
      refine ⟨s, hs, by rw [hdied s hs hsid], ⟨r, hr, hrunning, hsid.symm⟩, ?_⟩
      intro s' hs' hne hid
      exact hne ((hdied s' hs' (hid.trans hsid)).trans (hdied s hs hsid).symm)
    · exact .inl ⟨r, hr, hrunning, hheld⟩
  · rintro (⟨r, hr, hrunning, hfree⟩ | ⟨s, hs, hdie, ⟨r, hr, hrunning, hid⟩, halone⟩)
    · refine ⟨r, hr, hrunning, ?_⟩
      rintro ⟨s, hs, hsid⟩
      exact hfree ⟨s, (Keyed.mem_erase.mp hs).1, hsid⟩
    · cases hdie
      refine ⟨r, hr, hrunning, ?_⟩
      rintro ⟨s', hs', hsid⟩
      obtain ⟨hmem, hne⟩ := Keyed.mem_erase.mp hs'
      exact halone s' hmem hne (hsid.trans hid)

theorem stuck_step_alive {a : OpsAction} (ha : ∀ n, a ≠ .die n) : (w.step a).Stuck ↔ w.Stuck := by
  cases a with
  | wait duration => exact Iff.rfl
  | check request user =>
    show (w.check request user).Stuck ↔ _
    unfold check
    split <;> exact Iff.rfl
  | insert request =>
    show (w.insert request).Stuck ↔ _
    unfold insert
    split
    · exact Iff.rfl
    · exact stuck_insertRow _
  | poll id => exact stuck_poll id
  | schedule => exact stuck_schedule
  | claim n => exact stuck_claim n
  | finish n verdict => exact stuck_finish n verdict
  | die n => exact absurd rfl (ha n)

/-- A state is stuck after a step exactly when it was before or the last holder of a row dies. -/
theorem stuck_step (a : OpsAction) : (w.step a).Stuck ↔ w.Stuck ∨ w.Orphans a := by
  by_cases hdie : ∃ n, a = .die n
  · obtain ⟨n, rfl⟩ := hdie
    exact stuck_die n
  · have ha : ∀ n, a ≠ .die n := fun n h => hdie ⟨n, h⟩
    rw [stuck_step_alive ha, or_iff_left]
    rintro ⟨s, -, h, -⟩
    exact ha s.1 h

theorem not_stuck_run {ops : List OpsAction} (hops : ∀ a ∈ ops, ∀ n, a ≠ .die n) (h : ¬ w.Stuck) :
    ¬ (run step w ops).Stuck := by
  induction ops generalizing w with
  | nil => exact h
  | cons a ops ih =>
    refine ih (fun a' ha' => hops a' (List.mem_cons_of_mem _ ha')) ?_
    rw [stuck_step_alive (hops a List.mem_cons_self)]
    exact h

/-! ## The way out -/

/-- Operations of scripts that live on bring a row to its end. -/
def Resolvable (w : OpsWorld) : Prop :=
  ∃ ops, (∀ a ∈ ops, ∀ n, a ≠ .die n) ∧ (run step w ops).left < w.left

theorem Resolvable.of_step {a : OpsAction} (ha : ∀ n, a ≠ .die n) (hleft : (w.step a).left ≤ w.left)
    (h : (w.step a).Resolvable) : w.Resolvable := by
  obtain ⟨ops, hops, hless⟩ := h
  refine ⟨a :: ops, ?_, hless.trans_le hleft⟩
  intro a' ha'
  rcases List.mem_cons.mp ha' with rfl | hrest
  · exact ha
  · exact hops a' hrest

theorem resolvable_of_drilling {n id : ℕ} (hs : (n, .drilling id) ∈ w.scripts.rows)
    {r : BackupVerification} (hr : r ∈ w.verifications.rows) (hpending : r.pending = true)
    (hid : r.id = id) : w.Resolvable := by
  have hget : w.scripts.get? n = some (n, .drilling id) := Keyed.get?_of_mem hs
  refine ⟨[.finish n (.passed "")], by simp, ?_⟩
  show (w.finish n (.passed "")).left < w.left
  simp only [finish, hget]
  refine countP_lt_of_changed ?_ hr hpending ?_
  · intro r' _ hp
    by_cases hsame : r'.id = id
    · rw [BackupVerification.finish, if_pos hsame] at hp
      cases hp
    · rwa [BackupVerification.finish, if_neg hsame] at hp
  · rw [BackupVerification.finish, if_pos hid]
    rfl

theorem resolvable_of_claiming {n id : ℕ} (hs : (n, .claiming id) ∈ w.scripts.rows)
    {r : BackupVerification} (hr : r ∈ w.verifications.rows) (hpending : r.pending = true)
    (hid : r.id = id) : w.Resolvable := by
  have hget : w.scripts.get? n = some (n, .claiming id) := Keyed.get?_of_mem hs
  have hstep : w.step (.claim n) =
      { w with
        verifications := w.verifications.mapRows (.claim id w.clock) (BackupVerification.id_claim id _)
        scripts := w.scripts.put (n, .drilling id) } := by
    show w.claim n = _
    simp only [claim, hget]
  have hclaim : r.claim id w.clock = { r with status := .running, startedAt := some w.clock } :=
    if_pos hid
  refine @Resolvable.of_step w (.claim n) (by simp) ?_ ?_
  · -- the row was pending already
    rw [hstep]
    show (w.verifications.rows.map _).countP _ ≤ _
    rw [List.countP_map]
    refine List.countP_mono_left fun r' hr' hp => ?_
    by_cases hsame : r'.id = id
    · rw [w.verifications.eq_of_key hr' hr (hsame.trans hid.symm)]
      exact hpending
    · rwa [Function.comp_apply, BackupVerification.claim, if_neg hsame] at hp
  · rw [hstep]
    refine @resolvable_of_drilling _ n id ?_ (r.claim id w.clock) (List.mem_map.mpr ⟨r, hr, rfl⟩) ?_ ?_
    · exact Keyed.mem_put.mpr (.inr ⟨rfl, _, hs, rfl⟩)
    · rw [hclaim]
      rfl
    · rw [BackupVerification.id_claim, hid]

/-- The poller reads a row that waits, the oldest of them first. -/
theorem exists_isNext {r : BackupVerification} (hr : r ∈ w.verifications.rows)
    (hrequested : r.status = .requested) :
    ∃ r' ∈ w.verifications.rows, r'.status = .requested ∧ w.isNext r'.id = true := by
  set waiting := w.verifications.rows.filter (·.status = .requested) with hwaiting
  have hmem : r ∈ waiting := by simp [hwaiting, hr, hrequested]
  cases hmin : waiting.argmin (·.createdAt) with
  | none =>
    rw [List.argmin_eq_none.mp hmin] at hmem
    cases hmem
  | some r' =>
    have hr' : r' ∈ waiting := List.argmin_mem hmin
    simp only [hwaiting, List.mem_filter, decide_eq_true_eq] at hr'
    refine ⟨r', hr'.1, hr'.2, List.any_eq_true.mpr ⟨r', hr'.1, ?_⟩⟩
    simp only [hr'.2, decide_true, Bool.and_self, Bool.true_and, List.all_eq_true, Bool.or_eq_true,
      decide_eq_true_eq]
    intro r'' hr''
    by_cases hstatus : r''.status = .requested
    · exact .inr (List.le_of_mem_argmin (by simp [hwaiting, hr'', hstatus]) hmin)
    · exact .inl (by simp [hstatus])

theorem resolvable_of_requested {r : BackupVerification} (hr : r ∈ w.verifications.rows)
    (hrequested : r.status = .requested) : w.Resolvable := by
  obtain ⟨r', hr', hstatus, hnext⟩ := exists_isNext hr hrequested
  have hstep : w.step (.poll r'.id) = w.launch (.claiming r'.id) := if_pos hnext
  refine @Resolvable.of_step w (.poll r'.id) (by simp) ?_ ?_
  · rw [hstep]
    exact Nat.le_refl _
  · rw [hstep]
    refine @resolvable_of_claiming _ w.scripts.fresh r'.id ?_ r' hr' ?_ rfl
    · exact List.mem_append_right _ (List.mem_singleton.mpr rfl)
    · simp [BackupVerification.pending, hstatus]

theorem resolvable_of_not_stuck (h : ¬ w.Stuck) (hleft : w.left ≠ 0) : w.Resolvable := by
  obtain ⟨r, hr, hpending⟩ := List.countP_pos_iff.mp (Nat.pos_of_ne_zero hleft)
  by_cases hrequested : r.status = .requested
  · exact resolvable_of_requested hr hrequested
  · have hrunning : r.status = .running := by simpa [BackupVerification.pending, hrequested] using hpending
    have hheld : w.Held r.id := by
      by_contra hfree
      exact h ⟨r, hr, hrunning, hfree⟩
    obtain ⟨⟨n, s⟩, hs, hid⟩ := hheld
    cases s with
    | claiming id => exact resolvable_of_claiming hs hr hpending hid.symm
    | drilling id => exact resolvable_of_drilling hs hr hpending hid.symm

end

/-- In every run, it stays possible that a verification is requested exactly when no drill ever dies
while it is the last that holds a running row. Otherwise every later request is refused. -/
theorem requests_possible_iff (clock : ℤ) (ops : List OpsAction) :
    (∀ front, front <+: ops →
      ∃ later, (run step (run step (start clock) front) later).inProgress = false) ↔
    Along step (fun w a => ¬ w.Orphans a) (start clock) ops := by
  have hstart : ¬ (start clock).Stuck := by
    rintro ⟨r, hr, -⟩
    cases hr
  simp only [← left_eq_zero]
  refine always_recoverable_iff ?_ ?_ ?_ ?_ hstart ops
  · intro w a h
    exact (stuck_step a).mpr (.inl h)
  · rintro w ⟨r, hr, hrunning, -⟩
    exact (List.countP_pos_iff.mpr ⟨r, hr, by simp [BackupVerification.pending, hrunning]⟩).ne'
  · intro w h hleft
    obtain ⟨ops, hops, hless⟩ := resolvable_of_not_stuck h hleft
    exact ⟨ops, not_stuck_run hops h, hless⟩
  · intro w a h
    rw [stuck_step]
    simp [h]

/-- The time limit of the unit kills the weekly drill, and nobody can ask for another one. -/
example : (run step (start 0) [.schedule, .claim 1, .wait 3600000000, .die 1, .check 0 7]).requests 0
    = none := by decide

end OpsWorld

end SaccoPlatform.Ops
