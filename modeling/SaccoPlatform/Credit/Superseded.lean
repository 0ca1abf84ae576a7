import SaccoPlatform.Credit.Instalments
import SaccoPlatform.Lib.Lockstep

/-!
# Superseded instalments

A restructuring keeps the instalments it replaces, with `is_superseded` set and their status
as it was. Four readers of `loan_installments` come after it: the allocation of repayments,
the accrual task, the arrears task and the penalty query. None of them looks at the flag; each
has a filter of its own. This module says when a step of a reader passes every superseded row
over, and that runs of such steps are the runs in which those rows had been deleted.
-/

namespace SaccoPlatform

open Lib Session

def Tables.supersededInstallments (t : Tables) : List LoanInstallment :=
  t.installments.filter (·.isSuperseded)

/-- The tables with the superseded rows deleted. -/
def Tables.withoutSuperseded (t : Tables) : Tables :=
  { t with installments := t.installments.filter (!·.isSuperseded) }

/-! ## The readers -/

/-- What happens to a loan after a restructuring. -/
inductive LaterOp where
  | repay (r : RepaymentIn)
  | accrueInterest (today : Date)
  | markArrears (today : Date)
  | findLoansEligibleForFee (asOf : Date) (minDaysPastDue : ℤ)

/-- The tables, and the results of the queries so far. -/
structure Observed where
  tables : Tables
  results : List (List EligibleLoan)
deriving DecidableEq

def LaterOp.step (ar : LienArithmetic) (o : Observed) : LaterOp → Observed
  | repay r => { o with tables := (CreditOp.repay r).step ar o.tables }
  | accrueInterest today => { o with tables := (CreditOp.accrueInterest today).step ar o.tables }
  | markArrears today => { o with tables := (CreditOp.markArrears today).step ar o.tables }
  | findLoansEligibleForFee asOf minDaysPastDue =>
    { o with results := o.results ++ [o.tables.findLoansEligibleForFee asOf minDaysPastDue] }

/-- The later operations leave the superseded rows as they are, and their tables and results
are those of the run in which the superseded rows had been deleted. -/
structure Inert (ar : LienArithmetic) (t : Tables) (later : List LaterOp) : Prop where
  superseded : (run (LaterOp.step ar) ⟨t, []⟩ later).tables.supersededInstallments
    = t.supersededInstallments
  tables : (run (LaterOp.step ar) ⟨t.withoutSuperseded, []⟩ later).tables
    = (run (LaterOp.step ar) ⟨t, []⟩ later).tables.withoutSuperseded
  results : (run (LaterOp.step ar) ⟨t.withoutSuperseded, []⟩ later).results
    = (run (LaterOp.step ar) ⟨t, []⟩ later).results

/-! ## When a step passes the superseded rows over -/

/-- What is left to allocate once `payInstallment` is through with an instalment. -/
def leftAfter (left : ℚ × ℚ) (inst : LoanInstallment) : ℚ × ℚ :=
  let interestForInst := min left.1 (decimal (inst.interestDue.val - inst.interestPaid.val))
  let principalForInst := min left.2 (decimal (inst.principalDue.val - inst.principalPaid.val))
  (if 0 < interestForInst then decimal (left.1 - interestForInst) else left.1,
    if 0 < principalForInst then decimal (left.2 - principalForInst) else left.2)

/-- The allocation is used up before the loop comes to a superseded row. -/
def SparedByAllocation : List LoanInstallment → ℚ × ℚ → Prop
  | [], _ => True
  | inst :: rest, left =>
    (left.1 ≤ 0 ∧ left.2 ≤ 0) ∨
      (inst.isSuperseded = false ∧ SparedByAllocation rest (leftAfter left inst))

instance SparedByAllocation.decidable :
    ∀ rows left, Decidable (SparedByAllocation rows left)
  | [], _ => inferInstanceAs (Decidable True)
  | inst :: rest, left =>
    have : Decidable (SparedByAllocation rest (leftAfter left inst)) :=
      SparedByAllocation.decidable rest (leftAfter left inst)
    inferInstanceAs (Decidable (_ ∨ (_ ∧ _)))

/-- A repayment that will be allocated does not reach a superseded row. -/
def Tables.RepaymentSpares (t : Tables) (r : RepaymentIn) : Prop :=
  t.repayment? r.idempotencyKey = none → ∀ l ∈ t.loan? r.loanId, l.Active →
    SparedByAllocation (t.openInstallments l.id)
      ((allocate r.amount l.balances).interestApplied,
        (allocate r.amount l.balances).principalApplied)

/-- No superseded row is due for an accrual of its own: it carries no interest or its key is
in use. -/
def Tables.AccrualSpares (t : Tables) (today : Date) : Prop :=
  ∀ l ∈ t.loans, l.interestMethod = .reducingBalance → l.Active →
    ∀ inst ∈ t.dueInstallments today l.id, inst.isSuperseded →
      inst.interestDue.val ≤ 0 ∨ ∃ e ∈ t.entries, e.idempotencyKey = accrualKey l.id inst.dueDate

/-- The loan is overdue by its active rows if it is overdue at all, and no superseded row is
about to be marked. -/
def Tables.LoanSpared (t : Tables) (today : Date) (l : Loan) : Prop :=
  ∀ s ∈ t.overdueInstallments today l.id, s.isSuperseded →
    (∃ inst ∈ t.overdueInstallments today l.id, inst.isSuperseded = false) ∧
    (l.status = .disbursed → s.status = .overdue)

def Tables.ArrearsSpare (t : Tables) (today : Date) : Prop :=
  ∀ l ∈ t.loans, l.Active → t.LoanSpared today l

/-- A superseded row that is late enough to matter is not the oldest overdue row of its
loan. -/
def Tables.QuerySpares (t : Tables) (asOf : Date) (minDaysPastDue : ℤ) : Prop :=
  ∀ l ∈ t.loans, l.Active → ∀ s ∈ t.overdueInstallments asOf l.id, s.isSuperseded →
    minDaysPastDue ≤ asOf.ordinal - s.dueDate.ordinal →
    ∃ inst ∈ t.overdueInstallments asOf l.id, inst.isSuperseded = false ∧
      inst.dueDate ≤ s.dueDate

/-- The step passes over every superseded row. -/
def LaterOp.Spares (o : Observed) : LaterOp → Prop
  | repay r => o.tables.RepaymentSpares r
  | accrueInterest today => o.tables.AccrualSpares today
  | markArrears today => o.tables.ArrearsSpare today
  | findLoansEligibleForFee asOf minDaysPastDue => o.tables.QuerySpares asOf minDaysPastDue

instance (o : Observed) (op : LaterOp) : Decidable (op.Spares o) := by
  cases op <;> unfold LaterOp.Spares
  · unfold Tables.RepaymentSpares
    infer_instance
  · unfold Tables.AccrualSpares
    infer_instance
  · unfold Tables.ArrearsSpare Tables.LoanSpared
    infer_instance
  · unfold Tables.QuerySpares
    infer_instance

/-! ## Calls that do not look at the instalments -/

/-- The second tables are the first without the superseded rows, which are `rows`. -/
structure Erased (rows : List LoanInstallment) (t t' : Tables) : Prop where
  superseded : t.supersededInstallments = rows
  tables : t' = t.withoutSuperseded

variable {rows : List LoanInstallment}

/-- A write to other tables. -/
theorem respects_write {f : Tables → Tables} (hinst : ∀ t, (f t).installments = t.installments)
    (hf : ∀ t, f t.withoutSuperseded = (f t).withoutSuperseded) :
    Respects (Erased rows) (modify f : Call Unit) (modify f) := by
  apply respects_modify
  intro t t' h
  refine ⟨?_, ?_⟩
  · rw [← h.superseded, Tables.supersededInstallments, hinst]
    rfl
  · rw [h.tables, hf]

theorem respects_freshId : Respects (Erased rows) freshId freshId := by
  intro t t' h
  have hid : t'.nextId = t.nextId := by
    rw [h.tables]
    rfl
  unfold Lockstep freshId
  rw [hid]
  refine .ok _ ⟨h.superseded, ?_⟩
  rw [h.tables]
  rfl

theorem respects_writeMoney (q : ℚ) : Respects (Erased rows) (writeMoney q) (writeMoney q) := by
  intro t t' h
  unfold Lockstep writeMoney
  split
  · exact .ok _ h
  · exact .aborted _

theorem respects_publish (body : EventBody) :
    Respects (Erased rows) (publish body) (publish body) := by
  apply respects_bind respects_freshId
  intro id
  exact respects_write (fun _ => rfl) (fun _ => rfl)

theorem respects_storeLine (l : LineIn) : Respects (Erased rows) (storeLine l) (storeLine l) := by
  apply respects_get_bind
  intro t t' h
  have haccounts : t'.accounts = t.accounts := by
    rw [h.tables]
    rfl
  rw [haccounts]
  apply respects_bind (respects_constraint _ _)
  intro _
  apply respects_bind (respects_writeMoney _)
  intro debit
  apply respects_bind (respects_writeMoney _)
  intro credit
  apply respects_bind (respects_constraint _ _)
  intro _
  exact respects_pure _

theorem respects_storeLines (ls : List LineIn) :
    Respects (Erased rows) (storeLines ls) (storeLines ls) := by
  induction ls with
  | nil => exact respects_pure _
  | cons l ls ih =>
    apply respects_bind (respects_storeLine l)
    intro row
    apply respects_bind ih
    intro rest
    exact respects_pure _

theorem respects_postJournalEntry (reference description : String) (postedBy : Uuid)
    (key : String) (lines : List LineIn) :
    Respects (Erased rows) (postJournalEntry reference description postedBy key lines)
      (postJournalEntry reference description postedBy key lines) := by
  apply respects_get_bind
  intro t t' h
  have hentry : t'.entry? key = t.entry? key := by
    rw [h.tables]
    rfl
  rw [hentry]
  cases t.entry? key with
  | some existing => exact respects_pure _
  | none =>
    apply respects_bind (respects_require _ _)
    intro _
    apply respects_bind (respects_require _ _)
    intro _
    apply respects_bind respects_freshId
    intro id
    apply respects_bind (respects_storeLines lines)
    intro stored
    apply respects_bind
    · exact respects_write (fun _ => rfl) (fun _ => rfl)
    · intro _
      exact respects_pure _

theorem respects_saveLoan (l : Loan) (b : Balances) (status : LoanStatus) :
    Respects (Erased rows) (saveLoan l b status) (saveLoan l b status) := by
  unfold saveLoan
  iterate 7
    apply respects_bind (respects_writeMoney _)
    intro _
  iterate 3
    apply respects_bind (respects_constraint _ _)
    intro _
  apply respects_bind
  · exact respects_write (fun _ => rfl) (fun _ => rfl)
  · intro _
    exact respects_pure _

theorem respects_modifyGuarantees (f : Guarantees → Guarantees) :
    Respects (Erased rows) (modifyGuarantees f) (modifyGuarantees f) :=
  respects_write (fun _ => rfl) (fun _ => rfl)

theorem respects_insertRepayment (loanId : Uuid) (amount : ℚ) (a : Allocation)
    (account entryId : Uuid) (key : String) :
    Respects (Erased rows) (insertRepayment loanId amount a account entryId key)
      (insertRepayment loanId amount a account entryId key) := by
  unfold insertRepayment
  iterate 5
    apply respects_bind (respects_writeMoney _)
    intro _
  iterate 5
    apply respects_bind (respects_constraint _ _)
    intro _
  apply respects_bind respects_freshId
  intro id
  apply respects_bind
  · exact respects_write (fun _ => rfl) (fun _ => rfl)
  · intro _
    exact respects_pure _

theorem respects_recordExternalDebit (account : Uuid) (amount : ℚ) (entryId : Uuid)
    (key : String) :
    Respects (Erased rows) (recordExternalDebit account amount entryId key)
      (recordExternalDebit account amount entryId key) := by
  apply respects_get_bind
  intro t t' h
  have htxs : t'.savingsTransactions = t.savingsTransactions := by
    rw [h.tables]
    rfl
  have haccount : t'.savingsAccount? account = t.savingsAccount? account := by
    rw [h.tables]
    rfl
  rw [htxs, haccount]
  split
  · exact respects_pure _
  · apply respects_bind (respects_orRaise _ _)
    intro _
    apply respects_bind (respects_writeMoney _)
    intro _
    apply respects_bind (respects_constraint _ _)
    intro _
    apply respects_get_bind
    intro t₁ t₁' h₁
    have htxs₁ : t₁'.savingsTransactions = t₁.savingsTransactions := by
      rw [h₁.tables]
      rfl
    rw [htxs₁]
    apply respects_bind (respects_constraint _ _)
    intro _
    apply respects_bind respects_freshId
    intro id
    apply respects_bind
    · exact respects_write (fun _ => rfl) (fun _ => rfl)
    · intro _
      exact respects_pure _

theorem respects_debitSavings (r : RepaymentIn) (entryId : Uuid) :
    Respects (Erased rows) (debitSavings r entryId) (debitSavings r entryId) := by
  unfold debitSavings
  split
  · exact respects_pure ()
  · apply respects_bind (respects_recordExternalDebit _ _ _ _)
    intro _
    exact respects_pure ()

/-! ## Repayments -/

/-- An active row shares its id with no superseded row. -/
theorem Tables.InstallmentIds.apart {t : Tables} (h : t.InstallmentIds) {inst s : LoanInstallment}
    (hinst : inst ∈ t.installments) (hactive : inst.isSuperseded = false)
    (hs : s ∈ t.supersededInstallments) : s.id ≠ inst.id := by
  obtain ⟨hmem, hsup⟩ := List.mem_filter.mp hs
  intro heq
  rw [List.inj_on_of_nodup_map h.nodup hmem hinst heq, hactive] at hsup
  cases hsup

theorem openInstallments_withoutSuperseded (t : Tables) (loanId : Uuid) :
    t.withoutSuperseded.openInstallments loanId
      = (t.openInstallments loanId).filter (!·.isSuperseded) := by
  unfold Tables.openInstallments Tables.withoutSuperseded
  rw [filter_insertionSort, List.filter_comm]

/-- An update of rows that leaves the superseded ones alone and the flag as it is. -/
theorem Erased.mapInstallments {t t' : Tables} (h : Erased rows t t')
    {f : LoanInstallment → LoanInstallment}
    (hflag : ∀ r ∈ t.installments, (f r).isSuperseded = r.isSuperseded)
    (hfix : ∀ r ∈ t.installments, r.isSuperseded = true → f r = r) :
    Erased rows { t with installments := t.installments.map f }
      { t' with installments := t'.installments.map f } := by
  refine ⟨?_, ?_⟩
  · rw [← h.superseded]
    unfold Tables.supersededInstallments
    calc (t.installments.map f).filter (·.isSuperseded)
        = (t.installments.filter (·.isSuperseded)).map f := by
          rw [List.filter_map]
          congr 1
          exact List.filter_congr fun r hr => hflag r hr
      _ = (t.installments.filter (·.isSuperseded)).map id := by
          apply List.map_congr_left
          intro r hr
          obtain ⟨hmem, hsup⟩ := List.mem_filter.mp hr
          exact hfix r hmem hsup
      _ = t.installments.filter (·.isSuperseded) := List.map_id _
  · rw [h.tables]
    unfold Tables.withoutSuperseded
    congr 1
    rw [List.filter_map]
    congr 1
    apply List.filter_congr
    intro r hr
    show (!r.isSuperseded) = !(f r).isSuperseded
    rw [hflag r hr]

/-- Writing an active row back commutes with deleting the superseded rows. -/
theorem Erased.putInstallment {t t' : Tables} (h : Erased rows t t') {row : LoanInstallment}
    (hactive : row.isSuperseded = false) (hapart : ∀ s ∈ rows, s.id ≠ row.id) :
    Erased rows (t.putInstallment row) (t'.putInstallment row) := by
  -- a row under the id of an active row is active
  have hkeeps : ∀ r ∈ t.installments, r.id = row.id → r.isSuperseded = false := by
    intro r hr hid
    by_contra hsup
    rw [Bool.not_eq_false] at hsup
    have hmem : r ∈ rows := by
      rw [← h.superseded]
      exact List.mem_filter.mpr ⟨hr, hsup⟩
    exact hapart r hmem hid
  apply h.mapInstallments
  · intro r hr
    by_cases hid : r.id = row.id
    · rw [if_pos hid, hactive, hkeeps r hr hid]
    · rw [if_neg hid]
  · intro r hr hsup
    by_cases hid : r.id = row.id
    · rw [hkeeps r hr hid] at hsup
      cases hsup
    · rw [if_neg hid]

theorem payInstallment_result {left left' : ℚ × ℚ} {inst : LoanInstallment} {t t' : Tables}
    (h : payInstallment left inst t = .ok left' t') : left' = leftAfter left inst := by
  simp only [payInstallment, writeMoney_bind_eq_ok, modify_bind_eq_ok, pure_eq_ok] at h
  obtain ⟨_, -, _, -, hleft, -⟩ := h
  exact hleft.symm

theorem respects_payInstallment (left : ℚ × ℚ) {inst : LoanInstallment}
    (hactive : inst.isSuperseded = false) (hapart : ∀ s ∈ rows, s.id ≠ inst.id) :
    Respects (Erased rows) (payInstallment left inst) (payInstallment left inst) := by
  unfold payInstallment
  apply respects_bind (respects_writeMoney _)
  intro interestPaid
  apply respects_bind (respects_writeMoney _)
  intro principalPaid
  apply respects_bind
  · exact respects_modify fun t t' h => h.putInstallment hactive hapart
  · intro _
    exact respects_pure _

/-- Once nothing is left, the loop changes nothing. -/
theorem foldEach_allocateRound_exhausted {left : ℚ × ℚ} (hleft : left.1 ≤ 0 ∧ left.2 ≤ 0)
    (insts : List LoanInstallment) (t : Tables) :
    foldEach allocateRound insts left t = .ok left t := by
  induction insts with
  | nil => rfl
  | cons inst rest ih =>
    rw [foldEach, bind_apply, allocateRound, if_pos hleft]
    exact ih

/-- The loop over all rows, when the allocation spares the superseded ones, against the loop
over the active rows. -/
theorem lockstep_allocation {insts : List LoanInstallment} {left : ℚ × ℚ}
    (hspared : SparedByAllocation insts left)
    (hapart : ∀ inst ∈ insts, inst.isSuperseded = false → ∀ s ∈ rows, s.id ≠ inst.id)
    {t t' : Tables} (h : Erased rows t t') :
    Lockstep (Erased rows) (foldEach allocateRound insts left)
      (foldEach allocateRound (insts.filter (!·.isSuperseded)) left) t t' := by
  induction insts generalizing left t t' with
  | nil => exact lockstep_pure h left
  | cons inst rest ih =>
    by_cases hleft : left.1 ≤ 0 ∧ left.2 ≤ 0
    · unfold Lockstep
      rw [foldEach_allocateRound_exhausted hleft, foldEach_allocateRound_exhausted hleft]
      exact .ok left h
    · obtain ⟨hactive, hrest⟩ := hspared.resolve_left hleft
      have hkept : (inst :: rest).filter (!·.isSuperseded)
          = inst :: rest.filter (!·.isSuperseded) := by
        rw [List.filter_cons, hactive]
        rfl
      have hround : allocateRound left inst = payInstallment left inst := if_neg hleft
      rw [hkept, foldEach, foldEach, hround]
      apply lockstep_bind
        (respects_payInstallment left hactive (hapart inst List.mem_cons_self hactive) t t' h)
      intro left' s s' hpay hs
      rw [payInstallment_result hpay]
      exact ih hrest (fun i hi => hapart i (List.mem_cons_of_mem _ hi)) hs

theorem lockstep_updateInstallments {loanId : Uuid} {interest principal : ℚ} {t t' : Tables}
    (hids : ∀ inst ∈ t.installments, inst.isSuperseded = false → ∀ s ∈ rows, s.id ≠ inst.id)
    (hspared : SparedByAllocation (t.openInstallments loanId) (interest, principal))
    (h : Erased rows t t') :
    Lockstep (Erased rows) (updateInstallments loanId interest principal)
      (updateInstallments loanId interest principal) t t' := by
  apply lockstep_get_bind
  rw [h.tables, openInstallments_withoutSuperseded, ← h.tables]
  apply lockstep_bind (lockstep_allocation hspared ?_ h)
  · intro left s s' _ hs
    exact lockstep_pure hs ()
  · intro inst hinst
    exact hids inst (mem_openInstallments.mp hinst).1

theorem lockstep_recordRepayment {ar : LienArithmetic} {r : RepaymentIn} {loan : Loan}
    {a : Allocation} {entryId : Uuid} {t t' : Tables}
    (hids : ∀ inst ∈ t.installments, inst.isSuperseded = false → ∀ s ∈ rows, s.id ≠ inst.id)
    (hspared : SparedByAllocation (t.openInstallments loan.id)
      (a.interestApplied, a.principalApplied)) (h : Erased rows t t') :
    Lockstep (Erased rows) (recordRepayment ar r loan a entryId)
      (recordRepayment ar r loan a entryId) t t' := by
  unfold recordRepayment
  apply lockstep_bind (respects_saveLoan _ _ _ t t' h)
  intro row t₁ t₁' hsave h₁
  obtain ⟨rfl, -⟩ := saveLoan_ok hsave
  apply lockstep_bind (respects_modifyGuarantees _ _ _ h₁)
  intro _ t₂ t₂' hgs h₂
  cases hgs
  apply lockstep_bind (respects_insertRepayment _ _ _ _ _ _ _ _ h₂)
  intro id t₃ t₃' hins h₃
  obtain ⟨-, rp, -, rfl⟩ := insertRepayment_ok hins
  -- the instalments are still those the condition speaks about
  refine lockstep_bind (lockstep_updateInstallments ?_ ?_ h₃) ?_
  · exact hids
  · exact hspared
  intro _ t₄ t₄' _ h₄
  refine respects_bind (respects_debitSavings r entryId) (fun _ => ?_) t₄ t₄' h₄
  apply respects_bind (respects_publish _)
  intro _
  apply respects_bind (respects_when (respects_publish _))
  intro _
  exact respects_pure _

theorem lockstep_applyRepayment {ar : LienArithmetic} {r : RepaymentIn} {t t' : Tables}
    (hids : t.InstallmentIds) (hspared : t.RepaymentSpares r) (h : Erased rows t t') :
    Lockstep (Erased rows) (applyRepayment ar r) (applyRepayment ar r) t t' := by
  have hapart : ∀ inst ∈ t.installments, inst.isSuperseded = false →
      ∀ s ∈ rows, s.id ≠ inst.id := by
    intro inst hinst hactive s hs
    rw [← h.superseded] at hs
    exact hids.apart hinst hactive hs
  apply lockstep_get_bind
  have hrep : t'.repayment? r.idempotencyKey = t.repayment? r.idempotencyKey := by
    rw [h.tables]
    rfl
  have hloan? : t'.loan? r.loanId = t.loan? r.loanId := by
    rw [h.tables]
    rfl
  rw [hrep, hloan?]
  cases hkey : t.repayment? r.idempotencyKey with
  | some existing => exact lockstep_pure h _
  | none =>
    apply lockstep_bind (lockstep_orRaise h _ _)
    intro loan t₁ t₁' hloan h₁
    obtain ⟨hloan, rfl⟩ := orRaise_eq_ok.mp hloan
    apply lockstep_bind (lockstep_require h₁ _ _)
    intro _ t₂ t₂' hopen h₂
    obtain ⟨hopen, rfl⟩ := require_eq_ok.mp hopen
    apply lockstep_bind (lockstep_require h₂ _ _)
    intro _ t₃ t₃' hdone h₃
    obtain ⟨hdone, rfl⟩ := require_eq_ok.mp hdone
    have hactive : loan.Active := by
      unfold Loan.Active
      cases hs : loan.status <;> simp_all
    apply lockstep_bind (respects_postJournalEntry _ _ _ _ _ _ _ h₃)
    intro entryId t₄ t₄' hpost h₄
    have hsame : t₄.installments = t₃.installments := by
      rcases postJournalEntry_ok hpost with ⟨rfl, -⟩ | hposted
      · rfl
      · obtain ⟨e, -, -, rfl⟩ := hposted.entry
        rfl
    apply lockstep_recordRepayment
    · rw [hsame]
      exact hapart
    · unfold Tables.openInstallments
      rw [hsame]
      exact hspared hkey loan hloan hactive
    · exact h₄

/-! ## Accrual -/

theorem dueInstallments_withoutSuperseded (t : Tables) (today : Date) (loanId : Uuid) :
    t.withoutSuperseded.dueInstallments today loanId
      = (t.dueInstallments today loanId).filter (!·.isSuperseded) := by
  unfold Tables.dueInstallments Tables.withoutSuperseded
  have : Std.Total fun a b : LoanInstallment => a.dueDate ≤ b.dueDate :=
    ⟨fun a b => Nat.le_total a.dueDate.ordinal b.dueDate.ordinal⟩
  have : IsTrans LoanInstallment fun a b => a.dueDate ≤ b.dueDate :=
    ⟨fun a b c hab hbc => Nat.le_trans (Date.le_def.mp hab) (Date.le_def.mp hbc)⟩
  rw [filter_insertionSort, List.filter_comm]

theorem mem_dueInstallments {t : Tables} {today : Date} {loanId : Uuid} {inst : LoanInstallment} :
    inst ∈ t.dueInstallments today loanId ↔
      inst ∈ t.installments ∧ inst.loanId = loanId ∧ inst.dueDate ≤ today ∧ inst.Open := by
  simp [Tables.dueInstallments]

theorem respects_accrueInstallment (loanId : Uuid) (count : ℕ) (inst : LoanInstallment) :
    Respects (Erased rows) (accrueInstallment loanId count inst)
      (accrueInstallment loanId count inst) := by
  apply respects_get_bind
  intro t t' h
  have hentry : t'.entry? (accrualKey loanId inst.dueDate)
      = t.entry? (accrualKey loanId inst.dueDate) := by
    rw [h.tables]
    rfl
  have hloan : t'.loan? loanId = t.loan? loanId := by
    rw [h.tables]
    rfl
  rw [hentry, hloan]
  cases t.entry? (accrualKey loanId inst.dueDate) with
  | some e => exact respects_pure _
  | none =>
    cases t.loan? loanId with
    | none => exact respects_pure _
    | some loan =>
      dsimp only
      split
      · exact respects_pure _
      · refine respects_bind (fun t t' h => lockstep_savepoint h ?_) fun _ => respects_pure _
        refine respects_bind (respects_postJournalEntry _ _ _ _ _) (fun _ => ?_) t t' h
        exact respects_bind (respects_saveLoan _ _ _) fun _ => respects_pure _

/-- Entries are only added. -/
theorem accrueInstallment_entries (loanId : Uuid) (count : ℕ) (inst : LoanInstallment) :
    Moves (fun t t' => t.entries ⊆ t'.entries) (accrueInstallment loanId count inst) := by
  apply (neverRaises_accrueInstallment loanId count inst).moves
  intro t n t' h
  rcases accrueInstallment_ok h with ⟨-, rfl⟩ | ⟨-, loan, -, -, -, hpost⟩
  · exact List.Subset.refl _
  · obtain ⟨_, t₁, hentry, hrest⟩ := bind_eq_ok.mp hpost
    obtain ⟨row, t₂, hsave, hpure⟩ := bind_eq_ok.mp hrest
    obtain ⟨-, rfl⟩ := pure_eq_ok.mp hpure
    obtain ⟨rfl, -⟩ := saveLoan_ok hsave
    show t.entries ⊆ t₁.entries
    rcases postJournalEntry_ok hentry with ⟨rfl, -⟩ | hposted
    · exact List.Subset.refl _
    · obtain ⟨e, -, -, rfl⟩ := hposted.entry
      exact List.subset_append_left _ _

/-- An instalment without interest, or whose key is in use, is passed over. -/
theorem accrueInstallment_skips {loanId : Uuid} {inst : LoanInstallment} {t : Tables}
    (h : inst.interestDue.val ≤ 0 ∨
      ∃ e ∈ t.entries, e.idempotencyKey = accrualKey loanId inst.dueDate) (count : ℕ) :
    accrueInstallment loanId count inst t = .ok count t := by
  unfold accrueInstallment
  rw [bind_apply, get_apply]
  dsimp only
  cases hk : t.entry? (accrualKey loanId inst.dueDate) with
  | some e => rfl
  | none =>
    cases t.loan? loanId with
    | none => rfl
    | some loan =>
      have hno : inst.interestDue.val ≤ 0 := by
        apply h.resolve_right
        rintro ⟨e, he, hkey⟩
        exact entry?_eq_none.mp hk e he hkey
      dsimp only
      rw [if_pos hno]
      rfl

theorem lockstep_accrueLoan {today : Date} {t : Tables} (hspared : t.AccrualSpares today)
    (hrows : t.supersededInstallments = rows) {loan : Loan} (hloan : loan ∈ t.loans)
    (hmethod : loan.interestMethod = .reducingBalance) (hactive : loan.Active) (count : ℕ)
    {s s' : Tables} (hs : Erased rows s s' ∧ t.entries ⊆ s.entries) :
    Lockstep (fun s s' => Erased rows s s' ∧ t.entries ⊆ s.entries) (accrueLoan today count loan)
      (accrueLoan today count loan) s s' := by
  apply lockstep_get_bind
  rw [hs.1.tables, dueInstallments_withoutSuperseded, ← hs.1.tables]
  apply lockstep_foldEach_filter
  · intro count inst _ _ u u' hu
    apply (respects_accrueInstallment loan.id count inst u u' hu.1).and
    refine (accrueInstallment_entries loan.id count inst u).imp ?_
    intro u₁ hsub
    exact List.Subset.trans hu.2 hsub
  · intro count inst hinst hsup u u' hu
    rw [Bool.not_eq_false'] at hsup
    -- a superseded row that is due now was one before the task
    obtain ⟨hmem', hdue⟩ := mem_dueInstallments.mp hinst
    have hrow : inst ∈ t.supersededInstallments := by
      rw [hrows, ← hs.1.superseded]
      exact List.mem_filter.mpr ⟨hmem', hsup⟩
    have hbefore : inst ∈ t.dueInstallments today loan.id :=
      mem_dueInstallments.mpr ⟨(List.mem_filter.mp hrow).1, hdue⟩
    apply accrueInstallment_skips
    refine (hspared loan hloan hmethod hactive inst hbefore hsup).imp id ?_
    rintro ⟨e, he, hkey⟩
    exact ⟨e, hu.2 he, hkey⟩
  · exact hs

theorem lockstep_accrueForTenant {today : Date} {t t' : Tables} (hspared : t.AccrualSpares today)
    (h : Erased rows t t') :
    Lockstep (Erased rows) (accrueForTenant today) (accrueForTenant today) t t' := by
  apply lockstep_get_bind
  have hloans : t'.loans = t.loans := by
    rw [h.tables]
    rfl
  rw [hloans]
  -- the entries that are there before the task stay, so a key in use stays in use
  have hround : ∀ count, ∀ loan ∈ t.loans.filter
      (fun l => l.interestMethod = .reducingBalance ∧ l.Active), ∀ s s',
      Erased rows s s' ∧ t.entries ⊆ s.entries →
      Lockstep (fun s s' => Erased rows s s' ∧ t.entries ⊆ s.entries)
        (accrueLoan today count loan) (accrueLoan today count loan) s s' := by
    intro count loan hloan s s' hs
    obtain ⟨hmem, hprop⟩ := List.mem_filter.mp hloan
    obtain ⟨hmethod, hactive⟩ := of_decide_eq_true hprop
    exact lockstep_accrueLoan hspared h.superseded hmem hmethod hactive count hs
  exact (lockstep_foldEach hround ⟨h, List.Subset.refl _⟩ 0).imp fun _ _ hs => hs.1

/-! ## Arrears -/

theorem overdueInstallments_withoutSuperseded (t : Tables) (today : Date) (loanId : Uuid) :
    t.withoutSuperseded.overdueInstallments today loanId
      = (t.overdueInstallments today loanId).filter (!·.isSuperseded) :=
  List.filter_comm _ _ _

theorem mem_overdueInstallments {t : Tables} {today : Date} {loanId : Uuid}
    {inst : LoanInstallment} : inst ∈ t.overdueInstallments today loanId ↔
      inst ∈ t.installments ∧ inst.loanId = loanId ∧ inst.dueDate < today ∧ inst.Open := by
  simp [Tables.overdueInstallments]

theorem markOverdue_isSuperseded (today : Date) (loanId : Uuid) (inst : LoanInstallment) :
    (inst.markOverdue today loanId).isSuperseded = inst.isSuperseded := by
  unfold LoanInstallment.markOverdue
  split <;> rfl

/-- Marking changes no loan id and no due date, and an instalment that is open stays open. -/
theorem markOverdue_overdue (today : Date) (loanId id : Uuid) (inst : LoanInstallment) :
    ((inst.markOverdue today loanId).loanId = id ∧ (inst.markOverdue today loanId).dueDate < today ∧
      (inst.markOverdue today loanId).Open) ↔
    (inst.loanId = id ∧ inst.dueDate < today ∧ inst.Open) := by
  unfold LoanInstallment.markOverdue
  split
  · rename_i hmarked
    have hopen : inst.Open := hmarked.2.2.elim .inl fun h => .inr (.inl h)
    have hopen' : ({ inst with status := .overdue } : LoanInstallment).Open := .inr (.inr rfl)
    simp only [hopen, hopen', and_true]
  · rfl

theorem overdueInstallments_markOverdue (t : Tables) (today : Date) (loanId id : Uuid) :
    (t.markOverdue today loanId).overdueInstallments today id
      = (t.overdueInstallments today id).map (LoanInstallment.markOverdue today loanId) := by
  unfold Tables.overdueInstallments Tables.markOverdue
  rw [List.filter_map]
  congr 1
  apply List.filter_congr
  intro inst _
  exact decide_eq_decide.mpr (markOverdue_overdue today loanId id inst)

/-- Marking leaves the instalments of another loan alone. -/
theorem overdueInstallments_markOverdue_of_ne (t : Tables) (today : Date) {loanId id : Uuid}
    (hne : id ≠ loanId) : (t.markOverdue today loanId).overdueInstallments today id
      = t.overdueInstallments today id := by
  rw [overdueInstallments_markOverdue]
  conv_rhs => rw [← List.map_id (t.overdueInstallments today id)]
  apply List.map_congr_left
  intro inst hinst
  unfold LoanInstallment.markOverdue
  rw [if_neg]
  · rfl
  · rintro ⟨hid, -⟩
    exact hne ((mem_overdueInstallments.mp hinst).2.1 ▸ hid)

theorem Erased.markOverdue {t t' : Tables} (h : Erased rows t t') {today : Date} {loanId : Uuid}
    (hmarked : ∀ s ∈ t.overdueInstallments today loanId, s.isSuperseded → s.status = .overdue) :
    Erased rows (t.markOverdue today loanId) (t'.markOverdue today loanId) := by
  apply h.mapInstallments
  · intro r _
    exact markOverdue_isSuperseded today loanId r
  · intro r hr hsup
    unfold LoanInstallment.markOverdue
    rw [if_neg]
    rintro ⟨hid, hdue, hopen⟩
    have hover : r ∈ t.overdueInstallments today loanId :=
      mem_overdueInstallments.mpr ⟨hr, hid, hdue, hopen.elim .inl fun h => .inr (.inl h)⟩
    have hstatus := hmarked r hover hsup
    rcases hopen with hopen | hopen <;> rw [hstatus] at hopen <;> cases hopen

/-- Every active loan is spared when its turn comes. -/
def Tables.AllSpared (t : Tables) (today : Date) : Prop :=
  ∀ id l, t.loan? id = some l → l.Active → t.LoanSpared today l

/-- A spared loan is overdue exactly when it is overdue by its active rows. -/
theorem Tables.LoanSpared.overdue_iff {t : Tables} {today : Date} {l : Loan}
    (h : t.LoanSpared today l) :
    t.withoutSuperseded.overdueInstallments today l.id ≠ [] ↔
      t.overdueInstallments today l.id ≠ [] := by
  rw [overdueInstallments_withoutSuperseded]
  constructor
  · intro hkept hall
    rw [hall] at hkept
    exact hkept rfl
  · intro hsome hkept
    obtain ⟨inst, hinst⟩ := List.exists_mem_of_ne_nil _ hsome
    have hnone : ∀ i ∈ t.overdueInstallments today l.id, i.isSuperseded = true := by
      intro i hi
      by_contra hactive
      have hmem : i ∈ (t.overdueInstallments today l.id).filter (!·.isSuperseded) :=
        List.mem_filter.mpr ⟨hi, by simpa using hactive⟩
      rw [hkept] at hmem
      cases hmem
    obtain ⟨i, hi, hactive⟩ := (h inst hinst (hnone inst hinst)).1
    rw [hnone i hi] at hactive
    cases hactive

theorem lockstep_markLoan {today : Date} {loanId : Uuid} {t t' : Tables}
    (hspared : t.AllSpared today) (h : Erased rows t t') :
    Lockstep (Erased rows) (markLoan today loanId) (markLoan today loanId) t t' := by
  apply lockstep_get_bind
  have hloan? : t'.loan? loanId = t.loan? loanId := by
    rw [h.tables]
    rfl
  rw [hloan?]
  cases hl : t.loan? loanId with
  | none => exact lockstep_pure h _
  | some loan =>
    obtain ⟨-, hid⟩ := loan?_eq_some hl
    have hiff : loan.Active → (t'.overdueInstallments today loanId ≠ [] ↔
        t.overdueInstallments today loanId ≠ []) := by
      intro hactive
      rw [h.tables, ← hid]
      exact (hspared loanId loan hl hactive).overdue_iff
    have hsave : ∀ status, ∀ s s', Erased rows s s' → Lockstep (Erased rows)
        (saveLoan loan loan.balances status >>= fun _ => pure true)
        (saveLoan loan loan.balances status >>= fun _ => pure true) s s' := fun status =>
      respects_bind (respects_saveLoan _ _ _) fun _ => respects_pure _
    dsimp only
    by_cases hd : loan.status = .disbursed
    · simp only [hd, and_true, and_false, reduceCtorEq, if_false]
      by_cases hover : t.overdueInstallments today loanId ≠ []
      · rw [if_pos hover, if_pos ((hiff (.inl hd)).mpr hover)]
        refine lockstep_bind (lockstep_modify (h.markOverdue ?_)) fun _ s s' _ hs => hsave _ s s' hs
        intro s hs hsup
        rw [← hid] at hs
        exact (hspared loanId loan hl (.inl hd) s hs hsup).2 hd
      · rw [if_neg hover, if_neg (fun hc => hover ((hiff (.inl hd)).mp hc))]
        exact lockstep_pure h _
    · simp only [hd, and_false, if_false]
      by_cases ha : loan.status = .inArrears
      · simp only [ha, and_true]
        by_cases hover : t.overdueInstallments today loanId ≠ []
        · rw [if_neg (not_not.mpr hover), if_neg (not_not.mpr ((hiff (.inr ha)).mpr hover))]
          exact lockstep_pure h _
        · rw [if_pos hover, if_pos (fun hc => hover ((hiff (.inr ha)).mp hc))]
          exact hsave _ t t' h
      · simp only [ha, and_false, if_false]
        exact lockstep_pure h _

/-- Marking a loan leaves every loan spared. -/
theorem markLoan_allSpared {today : Date} {loanId : Uuid} {changed : Bool} {t t' : Tables}
    (hspared : t.AllSpared today) (h : markLoan today loanId t = .ok changed t') :
    t'.AllSpared today := by
  rcases markLoan_cases h with
    ⟨rfl, -⟩ | ⟨loan, row, hl, ⟨hstatus, -, hsaved, rfl⟩ | ⟨hstatus, hnone, hsaved, rfl⟩⟩
  · exact hspared
  · obtain ⟨-, hid⟩ := loan?_eq_some hl
    have hrow : row.id = loanId := hsaved.terms.id.trans hid
    intro id l hl' hactive
    rw [loan?_putLoan] at hl'
    obtain ⟨r, hr, rfl⟩ := Option.map_eq_some_iff.mp hl'
    by_cases hsame : r.id = row.id
    · -- the loan itself: now in arrears, and still overdue by an active row
      rw [if_pos hsame]
      intro s hs hsup
      refine ⟨?_, fun hd => ?_⟩
      · rw [hrow] at hs ⊢
        change s ∈ (t.markOverdue today loanId).overdueInstallments today loanId at hs
        change ∃ inst ∈ (t.markOverdue today loanId).overdueInstallments today loanId, _
        rw [overdueInstallments_markOverdue] at hs ⊢
        obtain ⟨s₀, hs₀, rfl⟩ := List.mem_map.mp hs
        rw [markOverdue_isSuperseded] at hsup
        rw [← hid] at hs₀
        obtain ⟨inst, hinst, hact⟩ := (hspared loanId loan hl (.inl hstatus) s₀ hs₀ hsup).1
        rw [hid] at hinst
        exact ⟨_, List.mem_map_of_mem hinst, by rw [markOverdue_isSuperseded, hact]⟩
      · rw [hsaved.status] at hd
        cases hd
    · rw [if_neg hsame] at hactive ⊢
      have hother : r.id ≠ loanId := fun hc => hsame (hc.trans hrow.symm)
      unfold Tables.LoanSpared
      change ∀ s ∈ (t.markOverdue today loanId).overdueInstallments today r.id, _ →
        (∃ inst ∈ (t.markOverdue today loanId).overdueInstallments today r.id, _) ∧ _
      rw [overdueInstallments_markOverdue_of_ne t today hother]
      exact hspared id r hr hactive
  · obtain ⟨-, hid⟩ := loan?_eq_some hl
    have hrow : row.id = loanId := hsaved.terms.id.trans hid
    intro id l hl' hactive
    rw [loan?_putLoan] at hl'
    obtain ⟨r, hr, rfl⟩ := Option.map_eq_some_iff.mp hl'
    by_cases hsame : r.id = row.id
    · -- nothing of the loan is overdue
      rw [if_pos hsame]
      intro s hs
      rw [hrow] at hs
      change s ∈ t.overdueInstallments today loanId at hs
      rw [hnone] at hs
      cases hs
    · rw [if_neg hsame] at hactive ⊢
      exact hspared id r hr hactive

theorem lockstep_markArrearsForTenant {today : Date} {t t' : Tables}
    (hspared : t.ArrearsSpare today) (h : Erased rows t t') :
    Lockstep (Erased rows) (markArrearsForTenant today) (markArrearsForTenant today) t t' := by
  apply lockstep_get_bind
  have hloans : t'.loans = t.loans := by
    rw [h.tables]
    rfl
  rw [hloans]
  have hall : t.AllSpared today := fun id l hl => hspared l (loan?_eq_some hl).1
  refine (lockstep_foldEach (R := fun s s' => Erased rows s s' ∧ s.AllSpared today)
    (fun count loan _ s s' hs => ?_) ⟨h, hall⟩ 0).imp fun _ _ hs => hs.1
  have hmark : Lockstep (fun s s' => Erased rows s s' ∧ s.AllSpared today)
      (savepoint (markLoan today loan.id)) (savepoint (markLoan today loan.id)) s s' := by
    apply (lockstep_savepoint hs.1 (lockstep_markLoan hs.2 hs.1)).and
    refine ⟨?_, ?_⟩
    · intro o s₁ hsp
      rcases savepoint_eq_ok hsp with rfl | ⟨b, -, hb⟩
      · exact hs.2
      · exact markLoan_allSpared hs.2 hb
    · intro e s₁ hsp
      exact absurd hsp (neverRaises_savepoint _ _ _ _)
  apply lockstep_bind hmark
  intro changed s₁ s₁' _ hs₁
  refine lockstep_pure ?_ _
  exact hs₁

/-! ## The penalty query -/

theorem daysPastDue_eq (t : Tables) (asOf : Date) (loanId : Uuid) :
    t.daysPastDue asOf loanId
      = (((t.overdueInstallments asOf loanId).map (·.dueDate.ordinal)).min?).map
        fun n => (asOf.ordinal : ℤ) - n := by
  unfold Tables.daysPastDue
  cases (t.overdueInstallments asOf loanId).map (·.dueDate.ordinal) with
  | nil => rfl
  | cons n rest => rfl

/-- One loan of the query, when no superseded row that is late enough is its oldest. -/
theorem eligible_withoutSuperseded {t : Tables} {asOf : Date} {minDaysPastDue : ℤ} {loanId : Uuid}
    (h : ∀ s ∈ t.overdueInstallments asOf loanId, s.isSuperseded →
      minDaysPastDue ≤ asOf.ordinal - s.dueDate.ordinal →
      ∃ inst ∈ t.overdueInstallments asOf loanId, inst.isSuperseded = false ∧
        inst.dueDate ≤ s.dueDate) :
    (t.withoutSuperseded.daysPastDue asOf loanId).filter (minDaysPastDue ≤ ·)
      = (t.daysPastDue asOf loanId).filter (minDaysPastDue ≤ ·) := by
  rw [daysPastDue_eq, daysPastDue_eq, overdueInstallments_withoutSuperseded]
  set all := t.overdueInstallments asOf loanId
  set kept := all.filter (!·.isSuperseded)
  have hsub : ∀ i ∈ kept, i ∈ all := fun i hi => (List.mem_filter.mp hi).1
  cases hall : (all.map (·.dueDate.ordinal)).min? with
  | none =>
    have hempty : all = [] := by simpa using hall
    have hkept : kept = [] := by
      show all.filter (!·.isSuperseded) = []
      rw [hempty]
      rfl
    rw [hkept]
    rfl
  | some n =>
    obtain ⟨hn, hmin⟩ := List.min?_eq_some_iff.mp hall
    obtain ⟨i, hi, rfl⟩ := List.mem_map.mp hn
    by_cases hlate : minDaysPastDue ≤ (asOf.ordinal : ℤ) - i.dueDate.ordinal
    · -- some active row is as old as the oldest row
      have hactive : ∃ a ∈ kept, a.dueDate.ordinal = i.dueDate.ordinal := by
        cases hsup : i.isSuperseded with
        | false => exact ⟨i, List.mem_filter.mpr ⟨hi, by rw [hsup]; rfl⟩, rfl⟩
        | true =>
          obtain ⟨a, ha, hflag, hle⟩ := h i hi hsup hlate
          have hge := hmin _ (List.mem_map_of_mem ha)
          exact ⟨a, List.mem_filter.mpr ⟨ha, by rw [hflag]; rfl⟩,
            Nat.le_antisymm (Date.le_def.mp hle) hge⟩
      obtain ⟨a, ha, heq⟩ := hactive
      have hkept : (kept.map (·.dueDate.ordinal)).min? = some i.dueDate.ordinal := by
        apply List.min?_eq_some_iff.mpr
        refine ⟨heq ▸ List.mem_map_of_mem ha, ?_⟩
        intro m hm
        obtain ⟨j, hj, rfl⟩ := List.mem_map.mp hm
        exact hmin _ (List.mem_map_of_mem (hsub j hj))
      rw [hkept]
    · -- nothing is late enough, with or without the superseded rows
      have hnone : ∀ o : Option ℕ, (∀ m ∈ o, i.dueDate.ordinal ≤ m) →
          (o.map fun n => (asOf.ordinal : ℤ) - n).filter (minDaysPastDue ≤ ·) = none := by
        intro o ho
        cases o with
        | none => rfl
        | some m =>
          have hm := ho m rfl
          have hnot : ¬ minDaysPastDue ≤ (asOf.ordinal : ℤ) - m := by omega
          simp [Option.filter, hnot]
      rw [hnone _ fun m hm => ?_, hnone _ fun m hm => by cases hm; exact le_rfl]
      obtain ⟨hmem, -⟩ := List.min?_eq_some_iff.mp hm
      obtain ⟨j, hj, rfl⟩ := List.mem_map.mp hmem
      exact hmin _ (List.mem_map_of_mem (hsub j hj))

theorem findLoansEligibleForFee_eq (t : Tables) (asOf : Date) (minDaysPastDue : ℤ) :
    t.findLoansEligibleForFee asOf minDaysPastDue
      = (t.loans.filter fun l => l.Active).filterMap fun l =>
        ((t.daysPastDue asOf l.id).filter (minDaysPastDue ≤ ·)).map
          fun days => ⟨l.id, l.memberId, l.outstandingPrincipal, days⟩ := by
  unfold Tables.findLoansEligibleForFee
  congr 1
  funext l
  cases t.daysPastDue asOf l.id with
  | none => rfl
  | some days =>
    by_cases h : minDaysPastDue ≤ days <;> simp [h, Option.filter]

theorem findLoansEligibleForFee_withoutSuperseded {t : Tables} {asOf : Date} {minDaysPastDue : ℤ}
    (h : t.QuerySpares asOf minDaysPastDue) :
    t.withoutSuperseded.findLoansEligibleForFee asOf minDaysPastDue
      = t.findLoansEligibleForFee asOf minDaysPastDue := by
  rw [findLoansEligibleForFee_eq, findLoansEligibleForFee_eq]
  show (t.loans.filter fun l => l.Active).filterMap _ = _
  apply List.filterMap_congr
  intro l hl
  obtain ⟨hmem, hactive⟩ := List.mem_filter.mp hl
  rw [eligible_withoutSuperseded (h l hmem (of_decide_eq_true hactive))]

/-! ## Runs -/

/-- The two runs, side by side. -/
structure SideBySide (rows : List LoanInstallment) (o o' : Observed) : Prop where
  ids : o.tables.InstallmentIds
  tables : Erased rows o.tables o'.tables
  results : o'.results = o.results

/-- A step that spares the superseded rows keeps the two runs side by side. -/
theorem SideBySide.step {ar : LienArithmetic} {o o' : Observed} (h : SideBySide rows o o')
    {op : LaterOp} (hspares : op.Spares o) : SideBySide rows (op.step ar o) (op.step ar o') := by
  cases op with
  | repay r =>
    exact ⟨step_keepsIds ar o.tables (.repay r) h.ids,
      lockstep_commit h.tables (lockstep_applyRepayment h.ids hspares h.tables), h.results⟩
  | accrueInterest today =>
    exact ⟨step_keepsIds ar o.tables (.accrueInterest today) h.ids,
      lockstep_commit h.tables (lockstep_accrueForTenant hspares h.tables), h.results⟩
  | markArrears today =>
    exact ⟨step_keepsIds ar o.tables (.markArrears today) h.ids,
      lockstep_commit h.tables (lockstep_markArrearsForTenant hspares h.tables), h.results⟩
  | findLoansEligibleForFee asOf minDaysPastDue =>
    refine ⟨h.ids, h.tables, ?_⟩
    show o'.results ++ [_] = o.results ++ [_]
    rw [h.results, h.tables.tables, findLoansEligibleForFee_withoutSuperseded hspares]

/-- After any history of credit operations, restructurings included, every run of steps that
spare the superseded rows is the run in which these rows had been deleted. -/
theorem superseded_inert (ar : LienArithmetic) {t : Tables} (hgenesis : t.Genesis)
    (history : List CreditOp) {later : List LaterOp}
    (hlater : Along (LaterOp.step ar) LaterOp.Spares
      ⟨run (CreditOp.step ar) t history, []⟩ later) :
    Inert ar (run (CreditOp.step ar) t history) later := by
  have hstart : SideBySide (run (CreditOp.step ar) t history).supersededInstallments
      ⟨run (CreditOp.step ar) t history, []⟩
      ⟨(run (CreditOp.step ar) t history).withoutSuperseded, []⟩ :=
    ⟨run_installmentIds ar hgenesis history, ⟨rfl, rfl⟩, rfl⟩
  have hend := run_simulation (fun _ _ _ h hspares => h.step hspares) hstart hlater
  exact ⟨hend.tables.superseded, hend.tables.tables, hend.results⟩

/-! ## Two restructured loans -/

/-- A restructuring of the sample loan by one period. -/
def sampleRestructuring (type : String) : CreditOp :=
  .restructure sampleDay ⟨some 11, some type, some 1, some "hardship", some "r", some none⟩

/-- An extended loan whose first superseded instalment has been paid off. -/
def extendedHistory : List CreditOp :=
  [sampleDisbursement, sampleRestructuring "term_extension", .accrueInterest firstDueDay,
    .repay (sampleRepayment (5075124 / 10000) "p1")]

/-- A smaller repayment, and the tasks and the query on the day the first period ends. -/
def extendedLater : List LaterOp :=
  [.repay (sampleRepayment 100 "p2"), .accrueInterest firstDueDay, .markArrears firstDueDay,
    .findLoansEligibleForFee firstDueDay 0]

theorem superseded_inert_extended :
    (run (CreditOp.step .python) (sampleTenant .reducingBalance)
      extendedHistory).supersededInstallments ≠ [] ∧
    Inert .python (run (CreditOp.step .python) (sampleTenant .reducingBalance) extendedHistory)
      extendedLater :=
  ⟨by decide +kernel, superseded_inert .python (genesis_sampleTenant .reducingBalance)
    extendedHistory (by decide +kernel)⟩

/-- A payment holiday moves the first instalment by a month; the accrual task still accrues
the interest of the superseded one. -/
theorem superseded_accrues_holiday :
    ¬ Inert .python (run (CreditOp.step .python) (sampleTenant .reducingBalance)
      [sampleDisbursement, sampleRestructuring "payment_holiday"])
      [.accrueInterest firstDueDay] := by
  intro h
  have hloans := congrArg (fun t => t.loans.map (·.accruedInterest)) h.tables
  revert hloans
  decide +kernel

end SaccoPlatform
