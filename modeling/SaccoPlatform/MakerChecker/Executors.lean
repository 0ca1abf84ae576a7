import SaccoPlatform.MakerChecker.Registry
import SaccoPlatform.Credit.Operations

/-!
# What a failed executor leaves

`ApprovalService._execute` swallows the exception of an executor in the same session and
commits, so a failed operation leaves no trace only where the executor had written nothing yet.
Most executors make all their checks first. Five can still raise after a write: the approval of
an application (the notice to the member), a restructuring (the new dates), the payroll batch
(it commits line by line), and on the platform the cancellation of a subscription and of a
tenant.
-/

namespace SaccoPlatform

open Lib Session

/-! ## Executors that check before they write -/

theorem raisesClean_executePostJournalEntry (payload : JournalEntryPayload) :
    RaisesClean (executePostJournalEntry payload) := by
  unfold executePostJournalEntry
  iterate 5
    apply raisesClean_orRaise_bind
    intro _ _
  exact raisesClean_bind_neverRaises (raisesClean_postJournalEntry _ _ _ _ _) fun _ =>
    neverRaises_pure _

theorem raisesClean_executeChangeStatus (today : Date) (payload : ChangeStatusPayload) :
    RaisesClean (executeChangeStatus today payload) := by
  unfold executeChangeStatus
  iterate 2
    apply raisesClean_orRaise_bind
    intro _ _
  apply raisesClean_get_bind
  intro t
  apply raisesClean_orRaise_bind
  intro member _
  apply NeverRaises.raisesClean
  split
  · exact neverRaises_abort _
  · apply neverRaises_bind (neverRaises_modify _)
    intro _
    unfold Session.when
    split
    · exact neverRaises_publish _
    · exact neverRaises_pure _

theorem neverRaises_insertShareTransaction (accountId : Uuid) (type : ShareTransactionType)
    (quantity : ℤ) (amount : ℚ) (entryId : Uuid) (key : String) :
    NeverRaises (insertShareTransaction accountId type quantity amount entryId key) := by
  unfold insertShareTransaction
  apply neverRaises_bind neverRaises_get
  intro t
  iterate 2
    apply neverRaises_bind (neverRaises_constraint _ _)
    intro _
  apply neverRaises_bind (neverRaises_writeInteger _)
  intro quantity
  apply neverRaises_bind (neverRaises_constraint _ _)
  intro _
  apply neverRaises_bind (neverRaises_writeMoney _)
  intro amount
  apply neverRaises_bind (neverRaises_constraint _ _)
  intro _
  apply neverRaises_bind neverRaises_freshId
  intro id
  apply neverRaises_bind (neverRaises_modify _)
  intro _
  exact neverRaises_pure _

theorem raisesClean_executeRedeemShares (payload : RedeemPayload) :
    RaisesClean (executeRedeemShares payload) := by
  unfold executeRedeemShares
  iterate 7
    apply raisesClean_orRaise_bind
    intro _ _
  apply raisesClean_bind_neverRaises (raisesClean_postJournalEntry _ _ _ _ _)
  intro entryId
  apply neverRaises_bind (neverRaises_insertShareTransaction _ _ _ _ _ _)
  intro _
  exact neverRaises_pure _

theorem neverRaises_insertSavingsTransaction (accountId : Uuid) (type : SavingsTransactionType)
    (amount : ℚ) (entryId : Uuid) (key : String) :
    NeverRaises (insertSavingsTransaction accountId type amount entryId key) := by
  unfold insertSavingsTransaction
  apply neverRaises_bind (neverRaises_writeMoney _)
  intro amount
  apply neverRaises_bind (neverRaises_constraint _ _)
  intro _
  apply neverRaises_bind neverRaises_get
  intro t
  apply neverRaises_bind (neverRaises_constraint _ _)
  intro _
  apply neverRaises_bind neverRaises_freshId
  intro id
  apply neverRaises_bind (neverRaises_modify _)
  intro _
  exact neverRaises_pure _

theorem raisesClean_executeWithdraw (payload : WithdrawPayload) :
    RaisesClean (executeWithdraw payload) := by
  unfold executeWithdraw
  iterate 6
    apply raisesClean_orRaise_bind
    intro _ _
  apply raisesClean_get_bind
  intro t
  split
  · exact raisesClean_pure _
  · apply raisesClean_bind_neverRaises (raisesClean_postJournalEntry _ _ _ _ _)
    intro entryId
    apply neverRaises_bind (neverRaises_constraint _ _)
    intro _
    apply neverRaises_bind (neverRaises_insertSavingsTransaction _ _ _ _ _)
    intro _
    exact neverRaises_pure _

theorem raisesClean_executeUpdateSensitive (payload : UpdateSensitivePayload) :
    RaisesClean (executeUpdateSensitive payload) := by
  unfold executeUpdateSensitive
  apply raisesClean_orRaise_bind
  intro userId _
  apply raisesClean_get_bind
  intro t
  apply raisesClean_orRaise_bind
  intro user _
  apply NeverRaises.raisesClean
  apply neverRaises_bind (neverRaises_constraint _ _)
  intro _
  exact neverRaises_modify _

theorem raisesClean_executeStartImpersonation (payload : ImpersonationPayload)
    (approvalRequestId : Uuid) :
    RaisesClean (executeStartImpersonation payload approvalRequestId) := by
  unfold executeStartImpersonation
  iterate 3
    apply raisesClean_orRaise_bind
    intro _ _
  apply raisesClean_get_bind
  intro t
  apply NeverRaises.raisesClean
  split
  · exact neverRaises_pure _
  · iterate 2
      apply neverRaises_bind (neverRaises_constraint _ _)
      intro _
    apply neverRaises_bind neverRaises_freshId
    intro id
    exact neverRaises_modify _

theorem raisesClean_confirmPayment (paymentId : Uuid) : RaisesClean (confirmPayment paymentId) := by
  unfold confirmPayment
  apply raisesClean_get_bind
  intro t
  apply raisesClean_orRaise_bind
  intro payment _
  apply raisesClean_require_bind
  intro _
  apply raisesClean_orRaise_bind
  intro invoice _
  apply raisesClean_require_bind
  intro _
  apply NeverRaises.raisesClean
  apply neverRaises_bind (neverRaises_writeMoney _)
  intro amountPaid
  exact neverRaises_modify _

theorem raisesClean_executeConfirmPayment (paymentId : Option Uuid) :
    RaisesClean (executeConfirmPayment paymentId) := by
  unfold executeConfirmPayment
  apply raisesClean_orRaise_bind
  intro paymentId _
  apply raisesClean_get_bind
  intro t
  split
  · exact raisesClean_pure _
  · exact raisesClean_confirmPayment paymentId

theorem raisesClean_executeVoidInvoice (invoiceId : Option Uuid) (reason : Option String) :
    RaisesClean (executeVoidInvoice invoiceId reason) := by
  unfold executeVoidInvoice
  iterate 2
    apply raisesClean_orRaise_bind
    intro _ _
  apply raisesClean_get_bind
  intro t
  split
  · exact raisesClean_pure _
  · unfold voidInvoice
    apply raisesClean_get_bind
    intro t
    apply raisesClean_orRaise_bind
    intro invoice _
    iterate 2
      apply raisesClean_require_bind
      intro _
    exact (neverRaises_modify _).raisesClean

theorem raisesClean_executeTenantSuspend (tenantId : Option Uuid) :
    RaisesClean (executeTenantSuspend tenantId) := by
  unfold executeTenantSuspend
  apply raisesClean_orRaise_bind
  intro tenantId _
  apply raisesClean_get_bind
  intro t
  apply raisesClean_orRaise_bind
  intro tenant _
  apply NeverRaises.raisesClean
  unfold Session.when
  split
  · exact neverRaises_modify _
  · exact neverRaises_pure _

theorem raisesClean_executeRetryProvisioning (tenantId : Option Uuid) :
    RaisesClean (executeRetryProvisioning tenantId) := by
  unfold executeRetryProvisioning
  apply raisesClean_orRaise_bind
  intro tenantId _
  exact raisesClean_pure _

/-! ## Executors that can raise after a write -/

/-- The executor passes its checks and changes a row before the last point at which it can
raise. -/
def Operation.WritesEarly (t : Tables) : Operation → Prop
  | approveApplication p =>
    (∃ a, p.applicationId.bind t.application? = some a) ∧ p.approvedAmount.isSome ∧
      p.approvedTermPeriods.isSome
  | restructureSchedule p =>
    (∃ loan, p.loanId.bind t.loan? = some loan ∧
      ∃ inst ∈ t.installments, inst.loanId = loan.id ∧ inst.isSuperseded = false ∧
        inst.status ≠ .paid) ∧
      p.restructuringType.isSome ∧ p.periodsAdded.isSome ∧ p.reason.isSome ∧
      p.idempotencyKey.isSome
  | applyPayrollBatch p =>
    (∃ batch, p.batchId.bind t.batch? = some batch ∧ batch.status ≠ .rejected) ∧
      p.clearingAccountId.isSome
  | cancelSubscription subscriptionId reason =>
    (∃ sub, subscriptionId.bind t.platform.subscription? = some sub) ∧ reason.isSome
  | tenantCancel p =>
    (∃ tenant, p.tenantId.bind t.platform.tenant? = some tenant ∧
      tenant.lifecycleState = .active) ∧ p.requestedBy.isSome ∧ p.reason.isSome
  | _ => False

/-! ### Applications -/

/-- Writing another row under the same id changes the table. -/
theorem putApplication_ne {t : Tables} {a row : LoanApplication}
    (ha : t.application? a.id = some a) (hid : row.id = a.id) (hne : row ≠ a) :
    t.putApplication row ≠ t := by
  intro heq
  have hfound : (t.putApplication row).application? a.id = some row :=
    find?_put LoanApplication.id hid ha
  rw [heq, ha] at hfound
  exact hne (Option.some.inj hfound).symm

/-- The row is written when the notice to the member is refused. -/
theorem executeApproveApplication_raised {p : ApproveApplicationPayload} {t t' : Tables} {e : Err}
    (h : executeApproveApplication p t = .raised e t') :
    t' = t ↔ ¬ (Operation.approveApplication p).WritesEarly t := by
  unfold executeApproveApplication at h
  simp only [orRaise_bind_eq_raised, get_bind_eq_raised] at h
  unfold Operation.WritesEarly
  rcases h with ⟨hid, -, rfl⟩ | ⟨id, hid, ⟨hamount, -, rfl⟩ | ⟨amount, hamount, ⟨hterm, -, rfl⟩ |
    ⟨term, hterm, ⟨happ, -, rfl⟩ | ⟨a, happ, h⟩⟩⟩⟩
  · simp [hid]
  · simp [hamount]
  · simp [hterm]
  · simp [hid, happ]
  · have hearly : (∃ a, p.applicationId.bind t.application? = some a) ∧ p.approvedAmount.isSome ∧
        p.approvedTermPeriods.isSome := by simp [hid, happ, hamount, hterm]
    split at h
    · exact absurd h (neverRaises_pure _ _ _ _)
    · rename_i hstatus
      simp only [writeMoney_bind_eq_raised, writeInteger_bind_eq_raised,
        modify_bind_eq_raised] at h
      obtain ⟨m, -, -, h⟩ := h
      obtain rfl := raisesClean_publishNotification _ _ _ _ _ h
      refine iff_of_false ?_ (not_not_intro hearly)
      intro heq
      have hid : a.id = id := by simpa using List.find?_some happ
      rw [← hid] at happ
      refine putApplication_ne happ ?_ ?_ heq
      · rfl
      · -- the application is approved afterwards and was not before
        intro hrow
        exact hstatus (congrArg LoanApplication.status hrow).symm

/-! ### Restructurings -/

/-- Instalments were only added. -/
def AddsInstallments (t t' : Tables) : Prop := t.installments <+: t'.installments

instance : IsPreorder Tables AddsInstallments where
  refl t := List.prefix_refl t.installments
  trans _ _ _ h h' := List.IsPrefix.trans h h'

theorem insertInstallment_adds (loanId : Uuid) (restructuringId : Option Uuid)
    (row : ScheduledInstallment) :
    Moves AddsInstallments (insertInstallment loanId restructuringId row) := by
  unfold insertInstallment writeInteger
  apply moves_bind (moves_bind (moves_constraint _ _) fun _ => moves_pure _)
  intro periodNumber
  iterate 3
    apply moves_bind (moves_writeMoney _)
    intro _
  iterate 3
    apply moves_bind (moves_constraint _ _)
    intro _
  apply moves_bind
  · exact moves_freshId fun t => List.prefix_refl t.installments
  · intro id
    apply moves_bind
    · exact moves_modify fun t => List.prefix_append t.installments _
    · intro _
      exact moves_pure _

theorem shiftUnpaid_adds (today : Date) (loan : Loan) (unpaid : List LoanInstallment)
    (periodsAdded : ℤ) : Moves AddsInstallments (shiftUnpaid today loan unpaid periodsAdded) := by
  unfold shiftUnpaid
  apply moves_bind
  · apply moves_foldEach
    intro acc orig _
    apply moves_bind (moves_ofExcept _)
    intro dueDate
    apply moves_bind (insertInstallment_adds _ _ _)
    intro id
    exact moves_pure _
  · intro acc
    exact moves_pure _

/-- The new schedule is computed before its first instalment is written. -/
theorem raisesClean_extendTerm (today : Date) (loan : Loan) (lastPaid : ℤ)
    (unpaid : List LoanInstallment) (periodsAdded : ℤ) :
    RaisesClean (extendTerm today loan lastPaid unpaid periodsAdded) := by
  unfold extendTerm
  apply raisesClean_ofExcept_bind
  intro schedule
  apply NeverRaises.raisesClean
  apply neverRaises_bind
  · apply neverRaises_foldEach
    intro ids row
    apply neverRaises_bind (neverRaises_insertInstallment _ _ _)
    intro id
    exact neverRaises_pure _
  · intro ids
    exact neverRaises_pure _

/-- The loan has an instalment that a restructuring supersedes. -/
def Tables.HasUnpaid (t : Tables) (loanId : Uuid) : Prop :=
  ∃ inst ∈ t.installments, inst.loanId = loanId ∧ inst.isSuperseded = false ∧
    inst.status ≠ .paid

theorem supersede_of_not_hasUnpaid {t : Tables} {loanId : Uuid} (h : ¬ t.HasUnpaid loanId) :
    t.supersede loanId = t := by
  have hsame : t.installments.map (fun inst =>
      if inst.loanId = loanId ∧ inst.isSuperseded = false ∧ inst.status ≠ .paid then
        { inst with isSuperseded := true } else inst) = t.installments := by
    conv_rhs => rw [← List.map_id t.installments]
    apply List.map_congr_left
    intro inst hinst
    exact if_neg fun hunpaid => h ⟨inst, hinst, hunpaid⟩
  unfold Tables.supersede
  rw [hsame]

/-- Superseding an instalment is not undone by adding others. -/
theorem HasUnpaid.not_adds {t : Tables} {loanId : Uuid} (h : t.HasUnpaid loanId) :
    ¬ AddsInstallments (t.supersede loanId) t := by
  intro hprefix
  obtain ⟨inst, hinst, hunpaid⟩ := h
  have hlength : (t.supersede loanId).installments.length = t.installments.length :=
    List.length_map _
  have heq : (t.supersede loanId).installments = t.installments := hprefix.eq_of_length hlength
  have hmap : ∀ i ∈ t.installments,
      (if i.loanId = loanId ∧ i.isSuperseded = false ∧ i.status ≠ .paid then
        { i with isSuperseded := true } else i) = i := by
    apply List.map_inj_left.mp
    rw [List.map_id']
    exact heq
  have hself := congrArg LoanInstallment.isSuperseded (hmap inst hinst)
  rw [if_pos hunpaid, hunpaid.2.1] at hself
  cases hself

theorem unpaid_eq_nil {t : Tables} {loanId : Uuid} (h : ¬ t.HasUnpaid loanId) :
    (t.activeInstallments loanId).filter (fun inst => inst.status ≠ .paid) = [] := by
  apply List.filter_eq_nil_iff.mpr
  intro inst hinst hstatus
  have hmem := (List.perm_insertionSort _ _).mem_iff.mp hinst
  simp only [List.mem_filter, decide_eq_true_eq] at hmem hstatus
  exact h ⟨inst, hmem.1, hmem.2.1, hmem.2.2, hstatus⟩

/-- What is left when the new dates cannot be computed: the old instalments, superseded. -/
theorem replaceSchedule_raised {today : Date} {loan : Loan} {type : String} {periodsAdded : ℤ}
    {t t' : Tables} {e : Err}
    (h : replaceSchedule today loan type periodsAdded t = .raised e t') :
    t' = t ↔ ¬ t.HasUnpaid loan.id := by
  unfold replaceSchedule at h
  rw [get_bind_eq_raised, modify_bind_eq_raised] at h
  by_cases hunpaid : t.HasUnpaid loan.id
  · refine iff_of_false ?_ (not_not_intro hunpaid)
    intro heq
    rw [heq] at h
    split at h
    · have hclean := raisesClean_extendTerm _ _ _ _ _ _ _ _ h
      apply HasUnpaid.not_adds hunpaid
      rw [← hclean]
      exact List.prefix_refl _
    · exact HasUnpaid.not_adds hunpaid ((shiftUnpaid_adds _ _ _ _).raised h)
  · refine iff_of_true ?_ hunpaid
    rw [supersede_of_not_hasUnpaid hunpaid, unpaid_eq_nil hunpaid] at h
    split at h
    · exact raisesClean_extendTerm _ _ _ _ _ _ _ _ h
    · -- no instalment to shift, and so no date to compute
      cases h

theorem executeRestructureSchedule_raised {today : Date} {p : RestructurePayload} {requestId : Uuid}
    {t t' : Tables} {e : Err}
    (h : executeRestructureSchedule today { p with approvalRequestId := some (some requestId) } t
      = .raised e t') :
    t' = t ↔ ¬ (Operation.restructureSchedule p).WritesEarly t := by
  unfold executeRestructureSchedule at h
  simp only [orRaise_bind_eq_raised, reduceCtorEq, false_and, false_or, Option.some.injEq,
    exists_eq_left'] at h
  unfold Operation.WritesEarly
  rcases h with ⟨hid, -, rfl⟩ | ⟨loanId, hid, ⟨htype, -, rfl⟩ | ⟨type, htype, ⟨hperiods, -, rfl⟩ |
    ⟨periods, hperiods, ⟨hreason, -, rfl⟩ | ⟨reason, hreason, ⟨hkey, -, rfl⟩ |
    ⟨key, hkey, h⟩⟩⟩⟩⟩
  · simp [hid]
  · simp [htype]
  · simp [hperiods]
  · simp [hreason]
  · simp [hkey]
  · simp only [hid, htype, hperiods, hreason, hkey, Option.bind_some, Option.isSome_some, and_true]
    rcases bind_eq_raised.mp h with h | ⟨_, _, -, h⟩
    · unfold executeRestructuringOn at h
      rw [get_bind_eq_raised] at h
      cases hexisting : t.restructuring? key with
      | some existing =>
        rw [hexisting] at h
        exact absurd h (neverRaises_pure _ _ _ _)
      | none =>
        rw [hexisting] at h
        rcases orRaise_bind_eq_raised.mp h with ⟨hloan, -, rfl⟩ | ⟨loan, hloan, h⟩
        · simp [hloan]
        · rw [hloan]
          rcases bind_eq_raised.mp h with h | ⟨_, _, -, h⟩
          · rw [replaceSchedule_raised h]
            simp [Tables.HasUnpaid]
          · exact absurd h (neverRaises_recordRestructuring _ _ _ _ _ _ _ _ _)
    · exact absurd h (neverRaises_pure _ _ _ _)

/-! ### Payroll batches -/

theorem neverRaises_attempt {α : Type} (x : Call α) : NeverRaises (attempt x) := by
  intro t e t' h
  unfold attempt at h
  cases hx : x t <;> simp [hx] at h

theorem neverRaises_applyBatchLine (ar : LienArithmetic) (batch : PayrollBatch)
    (clearingAccountId : Uuid) (line : PayrollBatchLine) :
    NeverRaises (applyBatchLine ar batch clearingAccountId line) := by
  unfold applyBatchLine
  split
  · exact neverRaises_modify _
  · apply neverRaises_bind (neverRaises_attempt _)
    intro result
    cases result with
    | ok id => exact neverRaises_modify _
    | error e => exact neverRaises_modify _

theorem applyBatch_raised {ar : LienArithmetic} {batchId clearingAccountId : Uuid}
    {batch : PayrollBatch} {t t' : Tables} {e : Err} (hbatch : t.batch? batchId = some batch)
    (h : applyBatch ar batchId clearingAccountId t = .raised e t') :
    batch.status ≠ .approved ∧ t' = t := by
  unfold applyBatch at h
  simp only [get_bind_eq_raised, hbatch, orRaise_bind_eq_raised, reduceCtorEq, false_and, false_or,
    Option.some.injEq, exists_eq_left', require_bind_eq_raised] at h
  rcases h with ⟨hstatus, -, rfl⟩ | ⟨-, h⟩
  · exact ⟨hstatus, rfl⟩
  · cases hlines : t.matchedLines batchId with
    | nil =>
      rw [hlines] at h
      cases h
    | cons line lines =>
      rw [hlines] at h
      rcases bind_eq_raised.mp h with h | ⟨_, _, -, h⟩
      · exact absurd h (neverRaises_applyBatchLine _ _ _ _ _ _ _)
      · exact absurd h (neverRaises_pure _ _ _ _)

/-- What follows once the batch is found and not applied yet. -/
theorem startPayrollBatch_found (ar : LienArithmetic) {p : PayrollPayload} {batch : PayrollBatch}
    {batchId clearing : Uuid} {t : Tables} (hid : p.batchId = some batchId)
    (hclearing : p.clearingAccountId = some clearing) (hbatch : t.batch? batchId = some batch)
    (hstatus : batch.status ≠ .applied) :
    ∃ t₁ batch₁, t₁.batch? batchId = some batch₁ ∧
      startPayrollBatch ar p t = applyBatch ar batchId clearing t₁ ∧
      ((batch.status = .pendingReview ∧ batch₁.status = .approved) ∨
        (batch.status ≠ .pendingReview ∧ batch₁ = batch ∧ t₁ = t)) := by
  have hbid : batch.id = batchId := by simpa using List.find?_some hbatch
  by_cases hpending : batch.status = .pendingReview
  · refine ⟨t.putBatch { batch with status := .approved }, { batch with status := .approved },
      ?_, ?_, .inl ⟨hpending, rfl⟩⟩
    · exact find?_put PayrollBatch.id hbid hbatch
    · simp [startPayrollBatch, bind_apply, hid, hclearing, hbatch, orRaise, hpending, Session.when]
  · refine ⟨t, batch, hbatch, ?_, .inr ⟨hpending, rfl, rfl⟩⟩
    simp [startPayrollBatch, bind_apply, hid, hclearing, hbatch, orRaise, hpending, hstatus,
      Session.when]

/-- A payroll batch is refused before anything is written, or not at all. -/
theorem startPayrollBatch_raised {ar : LienArithmetic} {p : PayrollPayload} {t t' : Tables} {e : Err}
    (h : startPayrollBatch ar p t = .raised e t') :
    t' = t ∧ ¬ (Operation.applyPayrollBatch p).WritesEarly t := by
  have hstart := h
  unfold startPayrollBatch at h
  simp only [orRaise_bind_eq_raised, get_bind_eq_raised] at h
  unfold Operation.WritesEarly
  rcases h with ⟨hid, -, rfl⟩ | ⟨batchId, hid, ⟨hclearing, -, rfl⟩ | ⟨clearing, hclearing,
    ⟨hbatch, -, rfl⟩ | ⟨batch, hbatch, h⟩⟩⟩
  · simp [hid]
  · simp [hclearing]
  · simp [hid, hbatch]
  · split at h
    · exact absurd h (neverRaises_pure _ _ _ _)
    · rename_i hstatus
      obtain ⟨t₁, batch₁, hbatch₁, heq, hcase⟩ :=
        startPayrollBatch_found ar hid hclearing hbatch hstatus
      rw [heq] at hstart
      obtain ⟨hnot, rfl⟩ := applyBatch_raised hbatch₁ hstart
      rcases hcase with ⟨-, happroved⟩ | ⟨hpending, rfl, rfl⟩
      · exact absurd happroved hnot
      · have hrejected : batch₁.status = .rejected := by
          cases hs : batch₁.status <;> simp_all
        simp [hid, hbatch, hrejected]

/-- What the payroll executor commits is a batch that it began to apply. -/
theorem payrollOwnCommit_writesEarly {ar : LienArithmetic} {p : PayrollPayload} {t t' : Tables}
    (h : payrollOwnCommit ar p t = some t') : (Operation.applyPayrollBatch p).WritesEarly t := by
  have hok : ∃ progress t₁, startPayrollBatch ar p t = .ok progress t₁ ∧
      progress ≠ .alreadyApplied := by
    unfold payrollOwnCommit at h
    split at h
    · cases h
    · rename_i progress t₁ hne hok
      exact ⟨progress, t₁, hok, fun happlied => hne (happlied ▸ rfl)⟩
    · cases h
  obtain ⟨progress, t₁, hok, hprogress⟩ := hok
  have hstart := hok
  unfold startPayrollBatch at hok
  simp only [orRaise_bind_eq_ok, get_bind_eq_ok] at hok
  obtain ⟨batchId, hid, clearing, hclearing, batch, hbatch, hok⟩ := hok
  refine ⟨⟨batch, by rw [hid, Option.bind_some, hbatch], ?_⟩, by rw [hclearing]; rfl⟩
  intro hrejected
  have hstatus : batch.status ≠ .applied := by rw [hrejected]; decide
  obtain ⟨t₁, batch₁, hbatch₁, heq, hcase⟩ :=
    startPayrollBatch_found ar hid hclearing hbatch hstatus
  rcases hcase with ⟨hpending, -⟩ | ⟨-, rfl, rfl⟩
  · rw [hrejected] at hpending
    cases hpending
  · rw [heq] at hstart
    simp only [applyBatch, get_bind_eq_ok, orRaise_bind_eq_ok, hbatch₁, require_bind_eq_ok] at hstart
    obtain ⟨b, hb, happroved, -⟩ := hstart
    rw [← Option.some.inj hb, hrejected] at happroved
    cases happroved

theorem executeApplyPayrollBatch_raised {ar : LienArithmetic} {p : PayrollPayload} {t t' : Tables}
    {e : Err} (h : executeApplyPayrollBatch ar p t = .raised e t') :
    t' = t ↔ ¬ (Operation.applyPayrollBatch p).WritesEarly t := by
  unfold executeApplyPayrollBatch at h
  rcases bind_eq_raised.mp h with h | ⟨progress, t₁, -, h⟩
  · obtain ⟨heq, hnot⟩ := startPayrollBatch_raised h
    exact iff_of_true heq hnot
  · unfold Session.when at h
    split at h
    · exact absurd h (neverRaises_abort _ _ _ _)
    · exact absurd h (neverRaises_pure _ _ _ _)

/-! ### Subscriptions and tenants -/

/-- The lifecycle events of tenants stay. -/
def SameLifecycle (t t' : Tables) : Prop :=
  t'.platform.lifecycleEvents = t.platform.lifecycleEvents

instance : IsPreorder Tables SameLifecycle where
  refl _ := rfl
  trans _ _ _ h h' := Eq.trans h' h

theorem cancelSubscription_sameLifecycle (subscriptionId : Uuid) (reason : String) :
    Moves SameLifecycle (cancelSubscription subscriptionId reason) := by
  unfold cancelSubscription
  apply moves_bind moves_get
  intro t
  apply moves_bind (moves_orRaise _ _)
  intro sub
  apply moves_bind (moves_require _ _)
  intro _
  apply moves_bind
  · exact moves_modify fun _ => rfl
  · intro _
    apply moves_bind (moves_orRaise _ _)
    intro tenant
    exact moves_modify fun _ => rfl

/-- Once it is found and active the tenant is moved to `cancelled`, whatever comes of its
subscription. -/
theorem executeTenantCancel_raised {p : TenantCancelPayload} {t t' : Tables} {e : Err}
    (h : executeTenantCancel p t = .raised e t') :
    t' = t ↔ ¬ (Operation.tenantCancel p).WritesEarly t := by
  unfold executeTenantCancel at h
  simp only [orRaise_bind_eq_raised, get_bind_eq_raised, require_bind_eq_raised] at h
  unfold Operation.WritesEarly
  rcases h with ⟨hid, -, rfl⟩ | ⟨tenantId, hid, ⟨hactor, -, rfl⟩ | ⟨actor, hactor,
    ⟨hreason, -, rfl⟩ | ⟨reason, hreason, ⟨htenant, -, rfl⟩ | ⟨tenant, htenant,
    ⟨hstate, -, rfl⟩ | ⟨hstate, h⟩⟩⟩⟩⟩
  · simp [hid]
  · simp [hactor]
  · simp [hreason]
  · simp [hid, htenant]
  · simp [hid, htenant, hstate]
  · refine iff_of_false ?_ (by simp [hid, hactor, hreason, htenant, hstate])
    intro heq
    rcases bind_eq_raised.mp h with h | ⟨_, t₁, hmove, h⟩
    · unfold transitionTenant at h
      rw [get_bind_eq_raised, constraint_bind_eq_raised] at h
      exact absurd h.2 (neverRaises_modify _ _ _ _)
    · have hevents : t₁.platform.lifecycleEvents =
          t.platform.lifecycleEvents ++ [⟨tenant.id, tenant.lifecycleState, .cancelled⟩] := by
        simp only [transitionTenant, get_bind_eq_ok, constraint_bind_eq_ok, modifyPlatform,
          modify_eq_ok] at hmove
        rw [hmove.2]
      cases hcurrent : tenant.currentSubscriptionId with
      | none =>
        rw [hcurrent] at h
        exact absurd h (neverRaises_pure _ _ _ _)
      | some subscriptionId =>
        -- the event of the transition is still there when the subscription is refused
        rw [hcurrent] at h
        have hsame := (cancelSubscription_sameLifecycle _ _).raised h
        rw [heq] at hsame
        have hlength := congrArg List.length (hsame.trans hevents)
        simp at hlength

/-- The subscription is cancelled when its tenant turns out to be missing. -/
theorem executeCancelSubscription_raised {subscriptionId : Option Uuid} {reason : Option String}
    {t t' : Tables} {e : Err}
    (h : executeCancelSubscription subscriptionId reason t = .raised e t') :
    t' = t ↔ ¬ (Operation.cancelSubscription subscriptionId reason).WritesEarly t := by
  unfold executeCancelSubscription at h
  simp only [orRaise_bind_eq_raised, get_bind_eq_raised] at h
  unfold Operation.WritesEarly
  rcases h with ⟨rfl, -, rfl⟩ | ⟨id, rfl, ⟨rfl, -, rfl⟩ | ⟨reason, rfl, h⟩⟩
  · simp
  · simp
  · split at h
    · exact absurd h (neverRaises_pure _ _ _ _)
    · rename_i hnot
      unfold cancelSubscription at h
      simp only [orRaise_bind_eq_raised, get_bind_eq_raised, require_bind_eq_raised] at h
      rcases h with ⟨hsub, -, rfl⟩ | ⟨sub, hsub, ⟨hstatus, -, rfl⟩ | ⟨hstatus, h⟩⟩
      · simp [hsub]
      · simp [hsub] at hnot
        exact absurd hnot hstatus
      · refine iff_of_false ?_ (by simp [hsub])
        intro heq
        have hid : sub.id = id := by simpa using List.find?_some hsub
        rcases bind_eq_raised.mp h with h | ⟨_, t₁, hmove, h⟩
        · exact absurd h (neverRaises_modify _ _ _ _)
        · obtain rfl := modify_eq_ok.mp hmove
          rcases orRaise_bind_eq_raised.mp h with ⟨-, -, rfl⟩ | ⟨tenant, -, h⟩
          · have hput : (t.platform.putSubscription
                { sub with status := .cancelled, cancellationReason := some reason }).subscription? id
                = some { sub with status := .cancelled, cancellationReason := some reason } :=
              find?_put Subscription.id hid hsub
            have hplatform := congrArg (fun t : Tables => t.platform.subscription? id) heq
            simp only at hplatform
            rw [hput, hsub] at hplatform
            exact hstatus (congrArg Subscription.status (Option.some.inj hplatform)).symm
          · exact absurd h (neverRaises_modify _ _ _ _)

/-! ## Atomicity -/

/-- An exception of an executor leaves the tables as they were unless the executor had got past
its checks. -/
theorem execute_raised {env : Surroundings} {requestId : Uuid} {op : Operation} {t t' : Tables}
    {e : Err} (h : op.execute env requestId t = .raised e t') : t' = t ↔ ¬ op.WritesEarly t := by
  have hclean : ∀ {x : Call Unit}, RaisesClean x → x t = .raised e t' → (t' = t ↔ ¬ False) :=
    fun hx hraised => iff_of_true (hx t e t' hraised) not_false
  cases op with
  | approveApplication p => exact executeApproveApplication_raised h
  | writeOff p => exact hclean (raisesClean_executeWriteOff p) h
  | restructureSchedule p => exact executeRestructureSchedule_raised h
  | applyPayrollBatch p => exact executeApplyPayrollBatch_raised h
  | postJournalEntry p => exact hclean (raisesClean_executePostJournalEntry p) h
  | changeStatus p => exact hclean (raisesClean_executeChangeStatus env.today p) h
  | redeemShares p => exact hclean (raisesClean_executeRedeemShares p) h
  | withdraw p => exact hclean (raisesClean_executeWithdraw p) h
  | updateSensitive p => exact hclean (raisesClean_executeUpdateSensitive p) h
  | startImpersonation p => exact hclean (raisesClean_executeStartImpersonation p requestId) h
  | confirmPayment id => exact hclean (raisesClean_executeConfirmPayment id) h
  | voidInvoice id reason => exact hclean (raisesClean_executeVoidInvoice id reason) h
  | cancelSubscription id reason => exact executeCancelSubscription_raised h
  | tenantSuspend id => exact hclean (raisesClean_executeTenantSuspend id) h
  | tenantCancel p => exact executeTenantCancel_raised h
  | retryProvisioning id => exact hclean (raisesClean_executeRetryProvisioning id) h

/-- An executor that commits itself has got past its checks. -/
theorem ownCommit_writesEarly {env : Surroundings} {op : Operation} {t t' : Tables}
    (h : op.ownCommit env t = some t') : op.WritesEarly t := by
  cases op with
  | applyPayrollBatch p => exact payrollOwnCommit_writesEarly h
  | _ => cases h

/-- The request is recorded as failed, and every other row is as it was. -/
structure FailedCleanly (r : ApprovalRequest Operation) (db db' : ApprovalDb Tables Operation) :
    Prop where
  status : (db'.request? r.id).map (·.status) = some .executionFailed
  data : db'.data = db.data
  others : ∀ id, id ≠ r.id → db'.request? id = db.request? id

/-- For every registered operation and payload: when the executor raises and the approval
commits, the request is recorded as failed and every other row is as it was, if and only if the
executor had not got past its checks to its first write. -/
theorem executor_atomic (env : Surroundings) {db db₁ db' : ApprovalDb Tables Operation}
    {requestId actor : Uuid} {r : ApprovalRequest Operation}
    (hgrant : grant requestId actor db = .ok (r, true) db₁)
    (hraises : ∀ u t, (tenantHooks env).execute r.operation r.id db₁.data ≠ .ok u t)
    (hcommit : commitSettle (tenantHooks env) r true db₁ = some db') :
    FailedCleanly r db db' ↔ ¬ r.operation.WritesEarly db.data := by
  obtain ⟨-, hvote, rfl, -⟩ := grant_ok hgrant
  have hfound : (db.vote r.id actor .approve).request? r.id = some r := hvote.found
  rcases commitSettle_complete hcommit with ⟨data, hown, rfl⟩ |
    ⟨-, data₁, data, status, hleft, hnotify, rfl⟩
  · -- the executor committed: the request stays approved
    refine iff_of_false ?_ (not_not_intro (ownCommit_writesEarly hown))
    intro hclean
    have hstatus := hclean.status
    change (((db.vote r.id actor .approve).setStatus r.id .approved).request? r.id).map _ = _
      at hstatus
    rw [request?_setStatus, hfound] at hstatus
    cases hstatus
  · obtain rfl := notifyDecided_ok hnotify
    rcases hleft with ⟨hok, -⟩ | ⟨e, hraised, rfl⟩
    · exact absurd hok (hraises _ _)
    · have hexec : r.operation.execute env r.id db.data = .raised e data := hraised
      rw [← execute_raised hexec]
      refine ⟨fun hclean => hclean.data, fun hdata => ⟨?_, hdata, ?_⟩⟩
      · change (((db.vote r.id actor .approve).setStatus r.id .executionFailed).request? r.id).map
          _ = _
        rw [request?_setStatus, hfound]
        rfl
      · intro id hid
        change ((db.vote r.id actor .approve).setStatus r.id .executionFailed).request? id = _
        rw [request?_setStatus_of_ne _ hid]
        rfl

/-- The sample loan, disbursed. -/
def disbursedTenant : Tables := sampleDisbursement.step .python (sampleTenant .reducingBalance)

/-- User 1 has submitted an operation for one approval. -/
def pendingOn (t : Tables) (op : Operation) : ApprovalDb Tables Operation :=
  ⟨t, 1, [⟨0, op, 1, 1, .pending, none⟩], [], []⟩

def sampleSurroundings : Surroundings := ⟨.python, sampleDay, [1, 2]⟩

/-- A payment holiday of so many months on the sample loan. -/
def holiday (months : ℤ) : Operation :=
  .restructureSchedule ⟨some 11, some "payment_holiday", some months, some "drought", some "h",
    none⟩

/-- The outcome of user 2's approval of the only request. -/
def approvedOutcome (t : Tables) (op : Operation) : Option (ApprovalDb Tables Operation) :=
  commitSettle (tenantHooks sampleSurroundings) ⟨0, op, 1, 1, .pending, none⟩ true
    ((pendingOn t op).vote 0 2 .approve)

/-- A payment holiday on a loan that does not exist. -/
def strayHoliday : Operation :=
  .restructureSchedule ⟨some 99, some "payment_holiday", some 1, some "drought", some "h", none⟩

theorem executor_atomic_strayHoliday :
    (approvedOutcome disbursedTenant strayHoliday).isSome ∧
    ∀ db' ∈ approvedOutcome disbursedTenant strayHoliday,
      FailedCleanly ⟨0, strayHoliday, 1, 1, .pending, none⟩
        (pendingOn disbursedTenant strayHoliday) db' := by
  have hgrant : grant 0 2 (pendingOn disbursedTenant strayHoliday)
      = .ok (⟨0, strayHoliday, 1, 1, .pending, none⟩, true)
        ((pendingOn disbursedTenant strayHoliday).vote 0 2 .approve) := by decide +kernel
  have hraises : (tenantHooks sampleSurroundings).execute strayHoliday 0 disbursedTenant
      = .raised (.valueError "Loan '99' not found") disbursedTenant := by decide +kernel
  refine ⟨by decide +kernel, ?_⟩
  intro db' hdb'
  refine (executor_atomic sampleSurroundings hgrant ?_ hdb').mpr ?_
  · intro u t hok
    cases hraises.symm.trans hok
  · rintro ⟨⟨loan, hloan, -⟩, -⟩
    have hnone : disbursedTenant.loan? 99 = none := by decide +kernel
    cases hnone.symm.trans hloan

/-- A holiday of 100000 months ends after the year 9999. The dates of the new instalments raise
after the old ones were superseded, and the approval commits that: the loan is left without an
active instalment. -/
theorem executor_not_atomic_holiday :
    grant 0 2 (pendingOn disbursedTenant (holiday 100000))
      = .ok (⟨0, holiday 100000, 1, 1, .pending, none⟩, true)
        ((pendingOn disbursedTenant (holiday 100000)).vote 0 2 .approve) ∧
    (tenantHooks sampleSurroundings).execute (holiday 100000) 0 disbursedTenant
      = .raised (.valueError "year is out of range") (disbursedTenant.supersede 11) ∧
    (disbursedTenant.installments.map (·.isSuperseded) = [false, false]) ∧
    (approvedOutcome disbursedTenant (holiday 100000)).map
      (fun db' => db'.data.installments.map (·.isSuperseded)) = some [true, true] ∧
    ¬ ∀ db' ∈ approvedOutcome disbursedTenant (holiday 100000),
      FailedCleanly ⟨0, holiday 100000, 1, 1, .pending, none⟩
        (pendingOn disbursedTenant (holiday 100000)) db' := by
  have hbefore : disbursedTenant.installments.map (·.isSuperseded) = [false, false] := by
    decide +kernel
  have hafter : (approvedOutcome disbursedTenant (holiday 100000)).map
      (fun db' => db'.data.installments.map (·.isSuperseded)) = some [true, true] := by
    decide +kernel
  refine ⟨by decide +kernel, by decide +kernel, hbefore, hafter, ?_⟩
  intro hclean
  obtain ⟨db', hdb', hflags⟩ := Option.map_eq_some_iff.mp hafter
  have hdata : db'.data = disbursedTenant := (hclean db' hdb').data
  rw [hdata, hbefore] at hflags
  cases hflags

end SaccoPlatform
