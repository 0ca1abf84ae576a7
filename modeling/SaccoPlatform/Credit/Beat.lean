import SaccoPlatform.Credit.Repayment
import SaccoPlatform.Credit.Disbursement
import SaccoPlatform.Lib.CalendarFields

/-!
# Beat tasks

The daily tasks of `app/modules/credit/beat.py`: reducing-balance interest is accrued per due
instalment, loans move in and out of arrears with their overdue instalments, and loan
snapshots are compared with the ledger. Each runs over all loans of a tenant in one session,
with a savepoint around every posting, so that one failure does not undo the rest.
-/

namespace SaccoPlatform

open Lib Session

/-- `status IN ('disbursed', 'in_arrears')`. -/
def Loan.Active (l : Loan) : Prop := l.status = .disbursed ∨ l.status = .inArrears

instance (l : Loan) : Decidable l.Active := inferInstanceAs (Decidable (_ ∨ _))

theorem Loan.Active.ne_closed {l : Loan} (h : l.Active) : l.status ≠ .closed := by
  rcases h with h | h <;> rw [h] <;> decide

/-! ## Interest accrual -/

def Balances.accrue (b : Balances) (interest : ℚ) : Balances :=
  { b with accruedInterest := b.accruedInterest + interest }

/-- `loan-accrue-{loan.id}-{due_date}`. -/
def accrualKey (loanId : Uuid) (dueDate : Date) : String :=
  creditKey .accrual s!"{loanId}-{dueDate.isoformat}"

/-- The body of the savepoint: post the interest and add it to the loan. -/
def postAccrual (loan : Loan) (inst : LoanInstallment) : Call Unit := do
  let _ ← postJournalEntry s!"LOAN-ACCRUE-{loan.id}-P{inst.periodNumber}"
    s!"Interest accrual: {loan.loanReference} period {inst.periodNumber}" systemActor
    (accrualKey loan.id inst.dueDate) (interestLines loan inst.interestDue.val)
  let _ ← saveLoan loan (loan.balances.accrue inst.interestDue.val) loan.status

/-- One due instalment: skipped when its key is in use or it carries no interest. The loan
is the session's own object, with the interest of the instalments before this one. -/
def accrueInstallment (loanId : Uuid) (count : ℕ) (inst : LoanInstallment) : Call ℕ := do
  let t ← get
  match t.entry? (accrualKey loanId inst.dueDate), t.loan? loanId with
  | none, some loan =>
    if inst.interestDue.val ≤ 0 then pure count
    else
      let posted ← savepoint (postAccrual loan inst)
      pure (if posted.isSome then count + 1 else count)
  | _, _ => pure count

/-- The open instalments of the loan that are due, by due date. -/
def Tables.dueInstallments (t : Tables) (today : Date) (loanId : Uuid) : List LoanInstallment :=
  (t.installments.filter fun inst => inst.loanId = loanId ∧ inst.dueDate ≤ today ∧ inst.Open)
    |>.insertionSort fun a b => a.dueDate ≤ b.dueDate

/-- One loan: its due instalments. -/
def accrueLoan (today : Date) (count : ℕ) (loan : Loan) : Call ℕ := do
  let t ← get
  foldEach (accrueInstallment loan.id) (t.dueInstallments today loan.id) count

/-- `_accrue_for_tenant`; returns the number of accruals posted. -/
def accrueForTenant (today : Date) : Call ℕ := do
  let t ← get
  foldEach (accrueLoan today)
    (t.loans.filter fun l => l.interestMethod = .reducingBalance ∧ l.Active) 0

/-! ## Arrears -/

/-- The open instalments of the loan that were due before `today`. -/
def Tables.overdueInstallments (t : Tables) (today : Date) (loanId : Uuid) :
    List LoanInstallment :=
  t.installments.filter fun inst => inst.loanId = loanId ∧ inst.dueDate < today ∧ inst.Open

/-- What the arrears task makes of a row of the table: `overdue` when it is a pending or
partially paid instalment of the loan due before `today`. -/
def LoanInstallment.markOverdue (today : Date) (loanId : Uuid) (inst : LoanInstallment) :
    LoanInstallment :=
  if inst.loanId = loanId ∧ inst.dueDate < today ∧
      (inst.status = .pending ∨ inst.status = .partiallyPaid) then
    { inst with status := .overdue }
  else inst

def Tables.markOverdue (t : Tables) (today : Date) (loanId : Uuid) : Tables :=
  { t with installments := t.installments.map (LoanInstallment.markOverdue today loanId) }

/-- The body of the savepoint: returns whether the status changed. -/
def markLoan (today : Date) (loanId : Uuid) : Call Bool := do
  let t ← get
  match t.loan? loanId with
  | none => pure false
  | some loan =>
    let hasOverdue := t.overdueInstallments today loanId ≠ []
    if hasOverdue ∧ loan.status = .disbursed then
      modify (·.markOverdue today loanId)
      let _ ← saveLoan loan loan.balances .inArrears
      pure true
    else if ¬ hasOverdue ∧ loan.status = .inArrears then
      let _ ← saveLoan loan loan.balances .disbursed
      pure true
    else pure false

/-- `_mark_arrears_for_tenant`; returns the number of loans whose status changed. -/
def markArrearsForTenant (today : Date) : Call ℕ := do
  let t ← get
  foldEach (fun count loan => do
      let changed ← savepoint (markLoan today loan.id)
      pure (if changed = some true then count + 1 else count))
    (t.loans.filter fun l => l.Active) 0

/-! ## Reconciliation -/

/-- The snapshot is more than a cent away from the ledger. -/
def Tables.Drifted (t : Tables) (l : Loan) : Prop :=
  1 / 100 < |t.subLedgerNet l.id l.glPrincipalReceivableId - l.outstandingPrincipal.val|

instance (t : Tables) (l : Loan) : Decidable (t.Drifted l) :=
  inferInstanceAs (Decidable (_ < _))

/-- `_reconcile_for_tenant`: the number of drifted loans. It writes nothing but audit rows. -/
def Tables.reconcileForTenant (t : Tables) : ℕ :=
  (t.loans.filter fun l => (l.Active ∨ l.status = .writtenOff) ∧ t.Drifted l).length

/-! ## What one round of a task does -/

/-- The key of an accrual names its loan and its due date. -/
theorem accrualKey_inj {i j : Uuid} {d e : Date} (h : accrualKey i d = accrualKey j e) : i = j ∧ d = e := by
  have htext : ∀ (i : Uuid) (d : Date),
      (s!"{i}-{d.isoformat}").toList = Nat.toDigits 10 i ++ '-' :: d.isoformat.toList := by
    intro i d
    show ("" ++ toString i ++ "-" ++ d.isoformat).toList = _
    simp [String.toList_append]
  have hchars := congrArg String.toList (creditKey_inj h).2
  rw [htext, htext] at hchars
  obtain ⟨hid, hdate⟩ := Date.append_separator_inj (Date.dash_notMem_digits i)
    (Date.dash_notMem_digits j) hchars
  have hvalue := congrArg (fun cs => Nat.ofDigitChars 10 cs 0) hid
  rw [Nat.ofDigitChars_ten_toDigits, Nat.ofDigitChars_ten_toDigits] at hvalue
  exact ⟨hvalue, Date.isoformat_inj (String.toList_injective hdate)⟩

/-- A due instalment is passed over, or its interest is posted under a key that was not in
use and counted. -/
theorem accrueInstallment_ok {loanId : Uuid} {count n : ℕ} {inst : LoanInstallment}
    {t t' : Tables} (h : accrueInstallment loanId count inst t = .ok n t') :
    (n = count ∧ t' = t) ∨ n = count + 1 ∧ ∃ loan, t.loan? loanId = some loan ∧
      (∀ e ∈ t.entries, e.idempotencyKey ≠ accrualKey loanId inst.dueDate) ∧
      0 < inst.interestDue.val ∧ postAccrual loan inst t = .ok () t' := by
  unfold accrueInstallment at h
  rw [get_bind_eq_ok] at h
  cases hk : t.entry? (accrualKey loanId inst.dueDate) with
  | some e =>
    simp only [hk, pure_eq_ok] at h
    exact .inl ⟨h.1.symm, h.2.symm⟩
  | none =>
    cases hl : t.loan? loanId with
    | none =>
      simp only [hk, hl, pure_eq_ok] at h
      exact .inl ⟨h.1.symm, h.2.symm⟩
    | some loan =>
      simp only [hk, hl] at h
      by_cases hpos : inst.interestDue.val ≤ 0
      · rw [if_pos hpos, pure_eq_ok] at h
        exact .inl ⟨h.1.symm, h.2.symm⟩
      · rw [if_neg hpos] at h
        obtain ⟨posted, t₁, hsp, h⟩ := bind_eq_ok.mp h
        obtain ⟨rfl, rfl⟩ := pure_eq_ok.mp h
        rcases savepoint_cases (postAccrual loan inst) t with ⟨_, t₂, hpost, heq⟩ | heq
        · rw [heq] at hsp
          cases hsp
          exact .inr ⟨rfl, loan, rfl, entry?_eq_none.mp hk, not_le.mp hpos, hpost⟩
        · rw [heq] at hsp
          cases hsp
          exact .inl ⟨rfl, rfl⟩

theorem neverRaises_accrueInstallment (loanId : Uuid) (count : ℕ) (inst : LoanInstallment) :
    NeverRaises (accrueInstallment loanId count inst) := by
  unfold accrueInstallment
  apply neverRaises_bind neverRaises_get
  intro t
  cases t.entry? (accrualKey loanId inst.dueDate) with
  | some e => exact neverRaises_pure _
  | none =>
    cases t.loan? loanId with
    | none => exact neverRaises_pure _
    | some loan =>
      dsimp only
      split
      · exact neverRaises_pure _
      · apply neverRaises_bind (neverRaises_savepoint _)
        intro _
        exact neverRaises_pure _

/-- A loan is left alone, as its status and its instalments agree; or it was disbursed and its overdue
instalments are marked; or it was in arrears and has no overdue instalment. -/
theorem markLoan_cases {today : Date} {loanId : Uuid} {changed : Bool} {t t' : Tables}
    (h : markLoan today loanId t = .ok changed t') :
    (t' = t ∧ ∀ loan, t.loan? loanId = some loan →
      (loan.status = .disbursed → t.overdueInstallments today loanId = []) ∧
        (loan.status = .inArrears → t.overdueInstallments today loanId ≠ [])) ∨
      ∃ loan row, t.loan? loanId = some loan ∧
        ((loan.status = .disbursed ∧ t.overdueInstallments today loanId ≠ [] ∧
            Saved loan loan.balances .inArrears row ∧ t' = (t.markOverdue today loanId).putLoan row) ∨
          (loan.status = .inArrears ∧ t.overdueInstallments today loanId = [] ∧
            Saved loan loan.balances .disbursed row ∧ t' = t.putLoan row)) := by
  unfold markLoan at h
  rw [get_bind_eq_ok] at h
  cases hl : t.loan? loanId with
  | none =>
    simp only [hl, pure_eq_ok] at h
    exact .inl ⟨h.2.symm, fun loan hloan => absurd hloan (by simp)⟩
  | some loan =>
    simp only [hl] at h
    split_ifs at h with hin hout
    · rw [modify_bind_eq_ok] at h
      obtain ⟨row, t₁, hsave, h⟩ := bind_eq_ok.mp h
      obtain ⟨-, rfl⟩ := pure_eq_ok.mp h
      obtain ⟨rfl, hsaved⟩ := saveLoan_ok hsave
      exact .inr ⟨loan, row, rfl, .inl ⟨hin.2, hin.1, hsaved, rfl⟩⟩
    · obtain ⟨row, t₁, hsave, h⟩ := bind_eq_ok.mp h
      obtain ⟨-, rfl⟩ := pure_eq_ok.mp h
      obtain ⟨rfl, hsaved⟩ := saveLoan_ok hsave
      exact .inr ⟨loan, row, rfl, .inr ⟨hout.2, not_not.mp hout.1, hsaved, rfl⟩⟩
    · refine .inl ⟨(pure_eq_ok.mp h).2.symm, ?_⟩
      intro loan' hloan'
      cases hloan'
      exact ⟨fun hd => not_not.mp fun hover => hin ⟨hover, hd⟩,
        fun ha hnone => hout ⟨not_not.mpr hnone, ha⟩⟩

/-- A loan's status is left alone, or it moves between disbursed and in arrears. -/
theorem markLoan_ok {today : Date} {loanId : Uuid} {changed : Bool} {t t' : Tables}
    (h : markLoan today loanId t = .ok changed t') :
    t' = t ∨ ∃ loan row status, t.loan? loanId = some loan ∧
      ((loan.status = .disbursed ∧ status = .inArrears) ∨
        (loan.status = .inArrears ∧ status = .disbursed)) ∧
      Saved loan loan.balances status row ∧ t'.loans = (t.putLoan row).loans ∧
      t'.entries = t.entries ∧ t'.repayments = t.repayments ∧ t'.nextId = t.nextId ∧
      t'.guarantees = t.guarantees := by
  rcases markLoan_cases h with
    ⟨rfl, -⟩ | ⟨loan, row, hl, ⟨hstatus, -, hsaved, rfl⟩ | ⟨hstatus, -, hsaved, rfl⟩⟩
  · exact .inl rfl
  · exact .inr ⟨loan, row, .inArrears, hl, .inl ⟨hstatus, rfl⟩, hsaved, rfl, rfl, rfl, rfl, rfl⟩
  · exact .inr ⟨loan, row, .disbursed, hl, .inr ⟨hstatus, rfl⟩, hsaved, rfl, rfl, rfl, rfl, rfl⟩

end SaccoPlatform
