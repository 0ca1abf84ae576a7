import SaccoPlatform.Lib.Runs
import SaccoPlatform.Platform.Gate

/-!
# Provisioning

`provision_tenant` on one tenant: the advisory lock, `_execute_steps` with one step of the model for
each of its commits, and `TenantService.suspend`, which reads the row and writes it in a transaction
of its own. Celery acknowledges late, so that the task may be delivered again at any time, and a worker
may die between any two commits; the lock then goes with its connection.

What the first three steps do to the schema of the tenant is left open: each of them returns or raises.
-/

namespace SaccoPlatform.Platform

open Lib

inductive ProvisioningStep where
  | createSchema | runMigrations | seedDefaults | finalize
deriving DecidableEq, Repr

/-- `STEP_SEQUENCE`. -/
def stepSequence : List ProvisioningStep := [.createSchema, .runMigrations, .seedDefaults, .finalize]

/-- The columns of `platform.tenants` that provisioning and `suspend` read or write. -/
structure ProvisioningRow where
  slug : String
  schemaName : String
  status : TenantStatus
  isActive : Bool
  subscriptionStatus : SubscriptionStatus
  provisioningState : Option ProvisioningStep
  failedStep : Option ProvisioningStep
  failureReason : Option String
  seedVersion : ℕ
deriving DecidableEq, Repr

/-- `_slug_to_schema`. -/
def slugToSchema (slug : String) : String :=
  "tenant_" ++ String.ofList (slug.toList.map fun c => if c = '-' then '_' else c)

/-- `TenantService.create`. -/
def ProvisioningRow.create (slug : String) : ProvisioningRow :=
  ⟨slug, slugToSchema slug, .pending, false, .pending, none, none, none, 1⟩

/-- What `load_tenant` returns. -/
structure TenantData where
  slug : String
  schemaName : String
  failedStep : Option ProvisioningStep
  seedVersion : ℕ
deriving DecidableEq, Repr

/-- The event that `run_finalize` publishes, with its payload. -/
structure TenantProvisioned where
  slug : String
  schemaName : String
  seedVersion : ℕ
deriving DecidableEq, Repr

/-- Where `_execute_steps` is: the tenant was loaded; the loop is about to take the first of these
steps; it is inside a step; the step has raised. -/
inductive ProvisionPhase where
  | loaded
  | next (steps : List ProvisioningStep)
  | working (step : ProvisioningStep) (steps : List ProvisioningStep)
  | raised (step : ProvisioningStep) (reason : String)
deriving DecidableEq, Repr

structure ProvisionRun where
  data : TenantData
  phase : ProvisionPhase
deriving DecidableEq, Repr

structure ProvisionWorld where
  tenant : ProvisioningRow
  /-- The run that holds the advisory lock. -/
  run : Option ProvisionRun
  /-- The rows that the calls of `suspend` in progress have read. -/
  suspending : ℕ → Option ProvisioningRow
  published : List TenantProvisioned
  /-- The steps that have returned, in this order. -/
  succeeded : List ProvisioningStep

/-- `steps_to_run`. -/
def stepsToRun : Option ProvisioningStep → List ProvisioningStep
  | none => stepSequence
  | some step => stepSequence.drop (stepSequence.idxOf step)

/-- `load_tenant` and the check of the schema's name. -/
def ProvisionWorld.load (w : ProvisionWorld) : ProvisionWorld :=
  if schemaRe w.tenant.schemaName then
    { w with
      run := some ⟨⟨w.tenant.slug, w.tenant.schemaName, w.tenant.failedStep, w.tenant.seedVersion⟩,
        .loaded⟩ }
  else w

/-- A delivery of `provision_tenant`, which returns at once when the lock is taken. -/
def ProvisionWorld.deliver (w : ProvisionWorld) : ProvisionWorld :=
  match w.run with
  | some _ => w
  | none => w.load

/-- The update before the loop. -/
def ProvisionWorld.begin (w : ProvisionWorld) (data : TenantData) : ProvisionWorld :=
  { w with
    tenant := { w.tenant with status := .provisioning, failedStep := none, failureReason := none }
    run := some ⟨data, .next (stepsToRun data.failedStep)⟩ }

/-- The update at the head of the loop. -/
def ProvisionWorld.enter (w : ProvisionWorld) (data : TenantData) (step : ProvisioningStep)
    (steps : List ProvisioningStep) : ProvisionWorld :=
  { w with
    tenant := { w.tenant with provisioningState := some step }
    run := some ⟨data, .working step steps⟩ }

/-- The transaction of `run_finalize`. -/
def ProvisionWorld.runFinalize (w : ProvisionWorld) (data : TenantData) : ProvisionWorld :=
  { w with
    tenant := { w.tenant with status := .active, isActive := true, provisioningState := none }
    published := w.published ++ [⟨data.slug, data.schemaName, data.seedVersion⟩] }

/-- The step returns. -/
def ProvisionWorld.finish (w : ProvisionWorld) (data : TenantData) (step : ProvisioningStep)
    (steps : List ProvisioningStep) : ProvisionWorld :=
  { (if step = .finalize then w.runFinalize data else w) with
    run := some ⟨data, .next steps⟩
    succeeded := w.succeeded ++ [step] }

/-- The update after an exception. -/
def ProvisionWorld.recordFailure (w : ProvisionWorld) (step : ProvisioningStep) (reason : String) :
    ProvisionWorld :=
  { w with
    tenant := { w.tenant with status := .failed, failedStep := some step, failureReason := some reason }
    run := none }

/-- The run makes its next commit, or comes to its end. -/
def ProvisionWorld.proceed (w : ProvisionWorld) : ProvisionWorld :=
  match w.run with
  | none => w
  | some ⟨data, .loaded⟩ => w.begin data
  | some ⟨_, .next []⟩ => { w with run := none }
  | some ⟨data, .next (step :: steps)⟩ => w.enter data step steps
  | some ⟨data, .working step steps⟩ => w.finish data step steps
  | some ⟨_, .raised step reason⟩ => w.recordFailure step reason

/-- The step raises, and its transaction is rolled back. -/
def ProvisionWorld.raise (w : ProvisionWorld) (reason : String) : ProvisionWorld :=
  match w.run with
  | some ⟨data, .working step _⟩ => { w with run := some ⟨data, .raised step reason⟩ }
  | _ => w

/-- The commit of `suspend`. The session writes the columns that it has changed. -/
def ProvisioningRow.suspend (seen row : ProvisioningRow) : ProvisioningRow :=
  if seen.status = .suspended then row
  else
    { row with
      isActive := if seen.isActive then false else row.isActive
      status := .suspended
      subscriptionStatus :=
        if seen.subscriptionStatus = .suspended then row.subscriptionStatus else .suspended }

def ProvisionWorld.commitSuspend (w : ProvisionWorld) (request : ℕ) : ProvisionWorld :=
  match w.suspending request with
  | none => w
  | some seen =>
    { w with
      tenant := seen.suspend w.tenant
      suspending := Function.update w.suspending request none }

inductive ProvisionAction where
  | deliver
  | proceed
  | raise (reason : String)
  | crash
  | readSuspend (request : ℕ)
  | commitSuspend (request : ℕ)
deriving DecidableEq, Repr

def ProvisionWorld.start (slug : String) : ProvisionWorld where
  tenant := .create slug
  run := none
  suspending _ := none
  published := []
  succeeded := []

def ProvisionWorld.step (w : ProvisionWorld) : ProvisionAction → ProvisionWorld
  | .deliver => w.deliver
  | .proceed => w.proceed
  | .raise reason => w.raise reason
  -- also what an exception outside of the steps does
  | .crash => { w with run := none }
  | .readSuspend request =>
    { w with suspending := Function.update w.suspending request (some w.tenant) }
  | .commitSuspend request => w.commitSuspend request

/-! ## Progress -/

/-- Everything before these steps has returned, in order. -/
def Ready (log steps : List ProvisioningStep) : Prop :=
  ∃ done, stepSequence = done ++ steps ∧ done.Sublist log

/-- The steps that the run has still to take. -/
def ProvisionRun.todo (r : ProvisionRun) : List ProvisioningStep :=
  match r.phase with
  | .loaded => stepsToRun r.data.failedStep
  | .next steps => steps
  | .working step steps => step :: steps
  | .raised step _ => stepsToRun (some step)

theorem ready_all (log : List ProvisioningStep) : Ready log stepSequence :=
  ⟨[], rfl, List.nil_sublist _⟩

theorem Ready.mono {log steps : List ProvisioningStep} (h : Ready log steps) (step : ProvisioningStep) :
    Ready (log ++ [step]) steps := by
  obtain ⟨done, hdone, hlog⟩ := h
  exact ⟨done, hdone, hlog.trans (List.sublist_append_left _ _)⟩

theorem Ready.tail {log steps : List ProvisioningStep} {step : ProvisioningStep}
    (h : Ready log (step :: steps)) : Ready (log ++ [step]) steps := by
  obtain ⟨done, hdone, hlog⟩ := h
  refine ⟨done ++ [step], ?_, hlog.append (List.Sublist.refl _)⟩
  rw [hdone, List.append_assoc, List.singleton_append]

/-- The sequence has no step twice, so that a step says how far the run is. -/
theorem idxOf_stepSequence {done steps : List ProvisioningStep} {step : ProvisioningStep}
    (h : stepSequence = done ++ step :: steps) : stepSequence.idxOf step = done.length := by
  have hnodup : (done ++ step :: steps).Nodup := h ▸ (by decide : stepSequence.Nodup)
  have hnew : step ∉ done := by
    intro hmem
    exact (List.nodup_append.mp hnodup).2.2 step hmem step List.mem_cons_self rfl
  rw [h, List.idxOf_append_of_notMem hnew, List.idxOf_cons_self, Nat.add_zero]

theorem Ready.resume {log steps : List ProvisioningStep} {step : ProvisioningStep}
    (h : Ready log (step :: steps)) : Ready log (stepsToRun (some step)) := by
  obtain ⟨done, hdone, hlog⟩ := h
  refine ⟨done, ?_, hlog⟩
  show stepSequence = done ++ stepSequence.drop (stepSequence.idxOf step)
  rw [idxOf_stepSequence hdone]
  nth_rewrite 2 [hdone]
  rw [List.drop_left, ← hdone]

/-- Before `finalize` come the three other steps, and after it nothing. -/
theorem Ready.finalize {log steps : List ProvisioningStep} (h : Ready log (.finalize :: steps)) :
    [.createSchema, .runMigrations, .seedDefaults].Sublist log ∧ steps = [] := by
  obtain ⟨done, hdone, hlog⟩ := h
  have hlength : done.length = 3 := (idxOf_stepSequence hdone).symm
  have hsplit : [.createSchema, .runMigrations, .seedDefaults] ++ [.finalize]
      = done ++ .finalize :: steps := hdone
  obtain ⟨hfront, hback⟩ := List.append_inj hsplit hlength.symm
  cases hback
  exact ⟨hfront ▸ hlog, rfl⟩

/-- The first step that has not returned yet. -/
def ProvisionWorld.firstLeft (w : ProvisionWorld) : Option ProvisioningStep :=
  stepSequence.find? (· ∉ w.succeeded)

theorem Ready.find?_eq_some {log steps : List ProvisioningStep} {step : ProvisioningStep}
    (h : Ready log (step :: steps)) (hnew : step ∉ log) :
    stepSequence.find? (· ∉ log) = some step := by
  obtain ⟨done, hdone, hlog⟩ := h
  have hnone : done.find? (· ∉ log) = none := by
    refine List.find?_eq_none.mpr ?_
    intro s hs
    simpa using hlog.subset hs
  rw [hdone, List.find?_append, hnone, List.find?_cons_of_pos (by simpa using hnew), Option.none_or]

/-- What every run keeps. -/
structure ProvisionWorld.Progress (w : ProvisionWorld) : Prop where
  row : Ready w.succeeded (stepsToRun w.tenant.failedStep)
  run : ∀ r ∈ w.run, Ready w.succeeded r.todo
  active : w.tenant.isActive = true →
    [.createSchema, .runMigrations, .seedDefaults].Sublist w.succeeded

section

variable {w : ProvisionWorld}

theorem ProvisionWorld.Progress.finish (h : w.Progress) {data : TenantData} {step : ProvisioningStep}
    {steps : List ProvisioningStep} (hrun : Ready w.succeeded (step :: steps)) :
    (w.finish data step steps).Progress := by
  have hready : ∀ r ∈ some (⟨data, .next steps⟩ : ProvisionRun),
      Ready (w.succeeded ++ [step]) r.todo := by
    rintro _ ⟨⟩
    exact hrun.tail
  have hlog : w.succeeded.Sublist (w.succeeded ++ [step]) := List.sublist_append_left _ _
  unfold ProvisionWorld.finish
  split_ifs with hstep
  · subst hstep
    exact ⟨h.row.mono _, hready, fun _ => hrun.finalize.1.trans hlog⟩
  · exact ⟨h.row.mono _, hready, fun hactive => (h.active hactive).trans hlog⟩

theorem ProvisionWorld.Progress.proceed (h : w.Progress) : w.proceed.Progress := by
  unfold ProvisionWorld.proceed
  split
  · exact h
  · rename_i data hrun
    have hready := h.run _ hrun
    refine ⟨ready_all _, ?_, h.active⟩
    rintro _ ⟨⟩
    exact hready
  · exact ⟨h.row, nofun, h.active⟩
  · rename_i data step steps hrun
    have hready := h.run _ hrun
    refine ⟨h.row, ?_, h.active⟩
    rintro _ ⟨⟩
    exact hready
  · rename_i data step steps hrun
    exact h.finish (h.run _ hrun)
  · rename_i data step reason hrun
    exact ⟨h.run _ hrun, nofun, h.active⟩

theorem isActive_suspend {seen row : ProvisioningRow} (h : (seen.suspend row).isActive = true) :
    row.isActive = true := by
  unfold ProvisioningRow.suspend at h
  split_ifs at h <;> exact h

theorem failedStep_suspend (seen row : ProvisioningRow) : (seen.suspend row).failedStep = row.failedStep := by
  unfold ProvisioningRow.suspend
  split_ifs <;> rfl

theorem ProvisionWorld.Progress.step (h : w.Progress) (a : ProvisionAction) : (w.step a).Progress := by
  cases a with
  | deliver =>
    show w.deliver.Progress
    unfold ProvisionWorld.deliver ProvisionWorld.load
    split
    · exact h
    · split_ifs
      · refine ⟨h.row, ?_, h.active⟩
        rintro _ ⟨⟩
        exact h.row
      · exact h
  | proceed => exact h.proceed
  | raise reason =>
    show (w.raise reason).Progress
    unfold ProvisionWorld.raise
    split
    · rename_i data step steps hrun
      refine ⟨h.row, ?_, h.active⟩
      rintro _ ⟨⟩
      -- the next run begins with the step that failed
      exact (h.run _ hrun).resume
    · exact h
  | crash => exact ⟨h.row, nofun, h.active⟩
  | readSuspend request => exact ⟨h.row, h.run, h.active⟩
  | commitSuspend request =>
    show (w.commitSuspend request).Progress
    unfold ProvisionWorld.commitSuspend
    split
    · exact h
    · rename_i seen hseen
      -- a suspension, however old its reading of the row, starts no step and activates nothing
      refine ⟨?_, h.run, fun hactive => h.active (isActive_suspend hactive)⟩
      show Ready w.succeeded (stepsToRun (seen.suspend w.tenant).failedStep)
      rw [failedStep_suspend]
      exact h.row

/-! ## One run to the end -/

/-- The step that the run is inside of. -/
def ProvisionPhase.step? : ProvisionPhase → Option ProvisioningStep
  | working step _ => some step
  | _ => none

/-- No run starts once the tenant has been provisioned, and no step raises that has returned before. -/
def Timely (w : ProvisionWorld) : ProvisionAction → Prop
  | .deliver => w.run = none → w.published = []
  | .raise _ => ∀ r ∈ w.run, ∀ step ∈ r.phase.step?, step ∉ w.succeeded
  | _ => True

instance (w : ProvisionWorld) : ∀ a : ProvisionAction, Decidable (Timely w a)
  | .deliver => inferInstanceAs (Decidable (w.run = none → w.published = []))
  | .raise _ => inferInstanceAs (Decidable (∀ r ∈ w.run, ∀ step ∈ r.phase.step?, step ∉ w.succeeded))
  | .proceed => inferInstanceAs (Decidable True)
  | .crash => inferInstanceAs (Decidable True)
  | .readSuspend _ => inferInstanceAs (Decidable True)
  | .commitSuspend _ => inferInstanceAs (Decidable True)

/-- What a run keeps when every step of it is timely. -/
structure ProvisionWorld.Sound (w : ProvisionWorld) : Prop where
  once : w.published.length ≤ 1
  active : w.tenant.isActive = true → w.published ≠ []
  provisioned : w.published ≠ [] → w.tenant.status ≠ .failed ∧ ∀ r ∈ w.run, r.phase = .next []
  failed : w.tenant.status = .failed →
    w.tenant.failedStep = w.firstLeft ∧ ∀ r ∈ w.run, r.phase = .loaded
  raised : ∀ r ∈ w.run, ∀ step reason, r.phase = .raised step reason → w.firstLeft = some step

/-- A run that has something left to do is not that of a provisioned tenant. -/
theorem ProvisionWorld.Sound.unpublished (h : w.Sound) {r : ProvisionRun} (hr : w.run = some r)
    (hphase : r.phase ≠ .next []) : w.published = [] := by
  by_contra hpublished
  exact hphase ((h.provisioned hpublished).2 r hr)

theorem ProvisionWorld.Sound.not_failed (h : w.Sound) {r : ProvisionRun} (hr : w.run = some r)
    (hphase : r.phase ≠ .loaded) : w.tenant.status ≠ .failed :=
  fun hfailed => hphase ((h.failed hfailed).2 r hr)

theorem ProvisionWorld.Sound.finish (h : w.Sound) {data : TenantData} {step : ProvisioningStep}
    {steps : List ProvisioningStep} (hr : w.run = some ⟨data, .working step steps⟩)
    (hready : Ready w.succeeded (step :: steps)) : (w.finish data step steps).Sound := by
  have hpublished : w.published = [] := h.unpublished hr nofun
  have hfailed : w.tenant.status ≠ .failed := h.not_failed hr nofun
  unfold ProvisionWorld.finish
  split_ifs with hstep
  · subst hstep
    obtain ⟨-, rfl⟩ := hready.finalize
    -- the only event, and nothing is left to do
    refine ⟨?_, ?_, ?_, nofun, ?_⟩
    · show (w.published ++ [_]).length ≤ 1
      rw [hpublished]
      exact le_rfl
    · exact fun _ => List.append_ne_nil_of_right_ne_nil _ (List.cons_ne_nil _ _)
    · refine fun _ => ⟨nofun, ?_⟩
      rintro _ ⟨⟩
      rfl
    · rintro _ ⟨⟩ _ _ ⟨⟩
  · refine ⟨h.once, h.active, fun hne => absurd hpublished hne, fun hf => absurd hf hfailed, ?_⟩
    rintro _ ⟨⟩ _ _ ⟨⟩

theorem ProvisionWorld.Sound.proceed (h : w.Sound) (hprogress : w.Progress) : w.proceed.Sound := by
  unfold ProvisionWorld.proceed
  split
  · exact h
  · rename_i data hr
    have hpublished : w.published = [] := h.unpublished hr nofun
    refine ⟨h.once, h.active, fun hne => absurd hpublished hne, nofun, ?_⟩
    rintro _ ⟨⟩ _ _ ⟨⟩
  · exact ⟨h.once, h.active, fun hne => ⟨(h.provisioned hne).1, nofun⟩,
      fun hf => ⟨(h.failed hf).1, nofun⟩, nofun⟩
  · rename_i data step steps hr
    have hpublished : w.published = [] := h.unpublished hr nofun
    have hfailed : w.tenant.status ≠ .failed := h.not_failed hr nofun
    refine ⟨h.once, h.active, fun hne => absurd hpublished hne, fun hf => absurd hf hfailed, ?_⟩
    rintro _ ⟨⟩ _ _ ⟨⟩
  · rename_i data step steps hr
    exact h.finish hr (hprogress.run _ hr)
  · rename_i data step reason hr
    have hpublished : w.published = [] := h.unpublished hr nofun
    refine ⟨h.once, h.active, fun hne => absurd hpublished hne, fun _ => ⟨?_, nofun⟩, nofun⟩
    exact (h.raised _ hr step reason rfl).symm

theorem ProvisionWorld.Sound.step (h : w.Sound) (hprogress : w.Progress) {a : ProvisionAction}
    (ha : Timely w a) : (w.step a).Sound := by
  cases a with
  | deliver =>
    show w.deliver.Sound
    unfold ProvisionWorld.deliver ProvisionWorld.load
    split
    · exact h
    · rename_i hnone
      have hpublished : w.published = [] := ha hnone
      split_ifs
      · refine ⟨h.once, h.active, fun hne => absurd hpublished hne,
          fun hf => ⟨(h.failed hf).1, ?_⟩, ?_⟩
        · rintro _ ⟨⟩
          rfl
        · rintro _ ⟨⟩ _ _ ⟨⟩
      · exact h
  | proceed => exact h.proceed hprogress
  | raise reason =>
    show (w.raise reason).Sound
    unfold ProvisionWorld.raise
    split
    · rename_i data step steps hr
      have hpublished : w.published = [] := h.unpublished hr nofun
      have hfailed : w.tenant.status ≠ .failed := h.not_failed hr nofun
      refine ⟨h.once, h.active, fun hne => absurd hpublished hne, fun hf => absurd hf hfailed, ?_⟩
      rintro _ ⟨⟩ _ _ ⟨⟩
      -- the steps before it have returned, and it has not
      have hnew : step ∉ w.succeeded := ha _ hr step rfl
      exact (hprogress.run _ hr).find?_eq_some hnew
    · exact h
  | crash =>
    exact ⟨h.once, h.active, fun hne => ⟨(h.provisioned hne).1, nofun⟩,
      fun hf => ⟨(h.failed hf).1, nofun⟩, nofun⟩
  | readSuspend request => exact ⟨h.once, h.active, h.provisioned, h.failed, h.raised⟩
  | commitSuspend request =>
    show (w.commitSuspend request).Sound
    unfold ProvisionWorld.commitSuspend
    split
    · exact h
    · rename_i seen hseen
      have hstatus : (seen.suspend w.tenant).status = .failed → w.tenant.status = .failed := by
        unfold ProvisioningRow.suspend
        split_ifs
        · exact id
        all_goals nofun
      refine ⟨h.once, fun hactive => h.active (isActive_suspend hactive), ?_, ?_, h.raised⟩
      · exact fun hne => ⟨fun hf => (h.provisioned hne).1 (hstatus hf), (h.provisioned hne).2⟩
      · intro hf
        obtain ⟨hstep, hloaded⟩ := h.failed (hstatus hf)
        exact ⟨(failedStep_suspend seen w.tenant).trans hstep, hloaded⟩

theorem published_step (w : ProvisionWorld) (a : ProvisionAction) :
    w.published <+: (w.step a).published := by
  cases a with
  | deliver =>
    show w.published <+: w.deliver.published
    unfold ProvisionWorld.deliver ProvisionWorld.load
    split
    · exact List.prefix_refl _
    · split_ifs <;> exact List.prefix_refl _
  | proceed =>
    show w.published <+: w.proceed.published
    unfold ProvisionWorld.proceed
    split
    case h_5 data step steps hr =>
      unfold ProvisionWorld.finish
      split_ifs
      · exact List.prefix_append _ _
      · exact List.prefix_refl _
    all_goals exact List.prefix_refl _
  | raise reason =>
    show w.published <+: (w.raise reason).published
    unfold ProvisionWorld.raise
    split <;> exact List.prefix_refl _
  | crash => exact List.prefix_refl _
  | readSuspend request => exact List.prefix_refl _
  | commitSuspend request =>
    show w.published <+: (w.commitSuspend request).published
    unfold ProvisionWorld.commitSuspend
    split <;> exact List.prefix_refl _

theorem published_step_ne_nil {a : ProvisionAction} (h : w.published ≠ []) :
    (w.step a).published ≠ [] := by
  intro hnil
  have hprefix := published_step w a
  rw [hnil] at hprefix
  exact h (List.prefix_nil.mp hprefix)

/-- A provisioned tenant that is not active stays so. -/
theorem ProvisionWorld.Sound.inactive_step (h : w.Sound) {a : ProvisionAction}
    (hpublished : w.published ≠ []) (hinactive : w.tenant.isActive = false) :
    (w.step a).tenant.isActive = false := by
  cases a with
  | deliver =>
    show w.deliver.tenant.isActive = false
    unfold ProvisionWorld.deliver ProvisionWorld.load
    split
    · exact hinactive
    · split_ifs <;> exact hinactive
  | proceed =>
    show w.proceed.tenant.isActive = false
    unfold ProvisionWorld.proceed
    split
    case h_5 data step steps hr => exact absurd (h.unpublished hr nofun) hpublished
    all_goals exact hinactive
  | raise reason =>
    show (w.raise reason).tenant.isActive = false
    unfold ProvisionWorld.raise
    split <;> exact hinactive
  | crash => exact hinactive
  | readSuspend request => exact hinactive
  | commitSuspend request =>
    show (w.commitSuspend request).tenant.isActive = false
    unfold ProvisionWorld.commitSuspend
    split
    · exact hinactive
    · rename_i seen hseen
      rw [← Bool.not_eq_true] at hinactive ⊢
      exact fun hactive => hinactive (isActive_suspend hactive)

end

/-! ## What holds in every run -/

/-- A tenant is active only after the three steps have returned, one after the other. -/
def ProvisionWorld.InOrder (w : ProvisionWorld) : Prop :=
  w.tenant.isActive = true → [.createSchema, .runMigrations, .seedDefaults].Sublist w.succeeded

/-- A failed tenant is not active, and `failed_step` is the first step that has not returned yet. -/
def ProvisionWorld.FailureRecorded (w : ProvisionWorld) : Prop :=
  w.tenant.status = .failed → w.tenant.isActive = false ∧ w.tenant.failedStep = w.firstLeft

/-- The tenant has been provisioned and is suspended. -/
def ProvisionWorld.Suspended (w : ProvisionWorld) : Prop :=
  w.published ≠ [] ∧ w.tenant.status = .suspended ∧ w.tenant.isActive = false

instance (w : ProvisionWorld) : Decidable w.InOrder :=
  inferInstanceAs (Decidable (w.tenant.isActive = true → List.Sublist _ _))

instance (w : ProvisionWorld) : Decidable w.FailureRecorded :=
  inferInstanceAs (Decidable (w.tenant.status = .failed → _))

instance (w : ProvisionWorld) : Decidable w.Suspended :=
  inferInstanceAs (Decidable (w.published ≠ [] ∧ _))

theorem progress_start (slug : String) : (ProvisionWorld.start slug).Progress where
  row := ready_all _
  run _ hr := nomatch hr
  active hactive := nomatch hactive

theorem sound_start (slug : String) : (ProvisionWorld.start slug).Sound where
  once := Nat.zero_le 1
  active hactive := nomatch hactive
  provisioned hne := absurd rfl hne
  failed hf := nomatch hf
  raised _ hr := nomatch hr

/-- A tenant becomes active in order in every run. Where no run starts once the tenant has been
provisioned and no step raises that has returned before, failures are recorded as they are, the event
is published once, and a suspended tenant stays suspended. -/
theorem provisioning_safe (slug : String) (actions : List ProvisionAction) :
    (∀ front, front <+: actions → (run ProvisionWorld.step (.start slug) front).InOrder) ∧
    (Along ProvisionWorld.step Timely (.start slug) actions →
      ∀ front later, front ++ later <+: actions →
        (run ProvisionWorld.step (.start slug) front).FailureRecorded ∧
        ((run ProvisionWorld.step (.start slug) front).tenant.isActive = true →
          (run ProvisionWorld.step (.start slug) (front ++ later)).published.length = 1) ∧
        ((run ProvisionWorld.step (.start slug) front).Suspended →
          (run ProvisionWorld.step (.start slug) (front ++ later)).tenant.isActive = false)) := by
  refine ⟨?_, ?_⟩
  · intro front _
    have hstep : ∀ (w : ProvisionWorld) (a : ProvisionAction), w.Progress → (w.step a).Progress :=
      fun _ a h => h.step a
    exact (run_invariant_of_step hstep front (progress_start slug)).active
  · rintro htimely front later ⟨rest, rfl⟩
    have hstep : ∀ (w : ProvisionWorld) (a : ProvisionAction), w.Progress ∧ w.Sound → Timely w a →
        (w.step a).Progress ∧ (w.step a).Sound :=
      fun _ a h ha => ⟨h.1.step a, h.2.step h.1 ha⟩
    have hfront := along_append.mp (along_append.mp htimely).1
    have hw := run_invariant hstep ⟨progress_start slug, sound_start slug⟩ hfront.1
    rw [run_append]
    set w := run ProvisionWorld.step (.start slug) front
    -- an active tenant was published, and then its status is no longer `failed`
    refine ⟨?_, ?_, ?_⟩
    · intro hfailed
      refine ⟨?_, (hw.2.failed hfailed).1⟩
      by_contra hactive
      exact (hw.2.provisioned (hw.2.active (Bool.not_eq_false _ ▸ hactive))).1 hfailed
    · intro hactive
      have hstep' : ∀ (v : ProvisionWorld) (a : ProvisionAction),
          (v.Progress ∧ v.Sound) ∧ v.published ≠ [] → Timely v a →
          ((v.step a).Progress ∧ (v.step a).Sound) ∧ (v.step a).published ≠ [] :=
        fun v a hv ha => ⟨hstep v a hv.1 ha, published_step_ne_nil hv.2⟩
      -- what is published stays so, and never twice
      have hlater := run_invariant hstep' ⟨hw, hw.2.active hactive⟩ hfront.2
      have hpos := List.length_pos_of_ne_nil hlater.2
      have hone := hlater.1.2.once
      omega
    · rintro ⟨hpublished, -, hinactive⟩
      have hstep' : ∀ (v : ProvisionWorld) (a : ProvisionAction),
          (v.Progress ∧ v.Sound) ∧ v.published ≠ [] ∧ v.tenant.isActive = false → Timely v a →
          ((v.step a).Progress ∧ (v.step a).Sound) ∧ (v.step a).published ≠ [] ∧
            (v.step a).tenant.isActive = false :=
        fun v a hv ha => ⟨hstep v a hv.1 ha, published_step_ne_nil hv.2.1,
          hv.1.2.inactive_step hv.2.1 hv.2.2⟩
      exact (run_invariant hstep' ⟨hw, hpublished, hinactive⟩ hfront.2).2.2

/-- The migrations of the tenant `umoja` fail. -/
def sampleFailed : List ProvisionAction :=
  [.deliver, .proceed, .proceed, .proceed, .proceed, .raise "connection refused", .proceed]

/-- Provisioning is tried again, to its end. -/
def sampleRetried : List ProvisionAction := sampleFailed ++ .deliver :: List.replicate 8 .proceed

theorem provisioning_safe_retried :
    (run ProvisionWorld.step (.start "umoja") sampleFailed).tenant.status = .failed ∧
    (run ProvisionWorld.step (.start "umoja") sampleFailed).tenant.failedStep = some .runMigrations ∧
    (run ProvisionWorld.step (.start "umoja") sampleFailed).tenant.isActive = false ∧
    (run ProvisionWorld.step (.start "umoja") sampleRetried).tenant.isActive = true ∧
    (run ProvisionWorld.step (.start "umoja") sampleRetried).published.length = 1 := by
  have hsafe := (provisioning_safe "umoja" sampleRetried).2 (by decide +kernel)
  have hfailed : (run ProvisionWorld.step (.start "umoja") sampleFailed).tenant.status = .failed := by
    decide +kernel
  have hactive : (run ProvisionWorld.step (.start "umoja") sampleRetried).tenant.isActive = true := by
    decide +kernel
  obtain ⟨hrecorded, -, -⟩ := hsafe sampleFailed (.deliver :: List.replicate 8 .proceed)
    (List.prefix_refl _)
  obtain ⟨-, honce, -⟩ := hsafe sampleRetried [] (by rw [List.append_nil])
  obtain ⟨hinactive, hstep⟩ := hrecorded hfailed
  refine ⟨hfailed, ?_, hinactive, hactive, honce hactive⟩
  rw [hstep]
  decide +kernel

/-- A delivery that runs to its end. -/
def sampleDelivery : List ProvisionAction := .deliver :: List.replicate 10 .proceed

/-- A delivery that fails in its first step. -/
def sampleBroken : List ProvisionAction :=
  [.deliver, .proceed, .proceed, .raise "connection refused", .proceed]

def sampleSuspension : List ProvisionAction := [.readSuspend 0, .commitSuspend 0]

/-- The worker dies after the first step. -/
def sampleCrashed : List ProvisionAction := [.deliver, .proceed, .proceed, .proceed, .crash]

/-- The task is delivered once more after the tenant has been provisioned: the event is published
again, a suspended tenant is active again, and an active tenant is marked as failed. And after a crash
the step that fails is one that has returned before. -/
theorem provisioning_not_safe :
    (run ProvisionWorld.step (.start "umoja") sampleDelivery).tenant.isActive = true ∧
    (run ProvisionWorld.step (.start "umoja") (sampleDelivery ++ sampleDelivery)).published.length = 2 ∧
    (run ProvisionWorld.step (.start "umoja") (sampleDelivery ++ sampleSuspension)).Suspended ∧
    (run ProvisionWorld.step (.start "umoja")
      (sampleDelivery ++ sampleSuspension ++ sampleDelivery)).tenant.isActive = true ∧
    (run ProvisionWorld.step (.start "umoja") (sampleDelivery ++ sampleBroken)).tenant.status
      = .failed ∧
    (run ProvisionWorld.step (.start "umoja") (sampleDelivery ++ sampleBroken)).tenant.isActive
      = true ∧
    (run ProvisionWorld.step (.start "umoja") (sampleCrashed ++ sampleBroken)).tenant.status = .failed ∧
    (run ProvisionWorld.step (.start "umoja") (sampleCrashed ++ sampleBroken)).tenant.failedStep
      = some .createSchema ∧
    (run ProvisionWorld.step (.start "umoja") (sampleCrashed ++ sampleBroken)).firstLeft
      = some .runMigrations :=
  ⟨by decide +kernel, by decide +kernel, by decide +kernel, by decide +kernel, by decide +kernel,
    by decide +kernel, by decide +kernel, by decide +kernel, by decide +kernel⟩

end SaccoPlatform.Platform
