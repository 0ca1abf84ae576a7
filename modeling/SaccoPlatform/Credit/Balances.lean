import SaccoPlatform.Ledger.Journal

/-!
# Loan balances

What every service of the credit module does to a loan row: it computes new balances as
Python decimals and flushes them to the `NUMERIC(19,4)` columns of `loans`, under the
`CHECK` constraints of the table. Also the idempotency keys of the journal entries that the
module posts.
-/

namespace SaccoPlatform

open Lib Session

/-! ## Idempotency keys of journal entries -/

/-- The journal entries of the credit module, by what they record. -/
inductive EntryKind where
  | disbursement | interestBooking | repayment | writeOff | recovery | accrual
deriving DecidableEq, Repr

/-- What the idempotency key of such an entry starts with. -/
def EntryKind.tag : EntryKind → String
  | disbursement => "loan-disb-"
  | interestBooking => "loan-int-book-"
  | repayment => "loan-rpy-"
  | writeOff => "loan-wo-"
  | recovery => "loan-wor-"
  | accrual => "loan-accrue-"

def EntryKind.all : List EntryKind :=
  [disbursement, interestBooking, repayment, writeOff, recovery, accrual]

theorem EntryKind.mem_all (kind : EntryKind) : kind ∈ EntryKind.all := by
  cases kind <;> decide

def creditKey (kind : EntryKind) (rest : String) : String := kind.tag ++ rest

/-- No tag starts another one, so the kind and the rest can be read off a key. -/
theorem creditKey_inj {kind kind' : EntryKind} {rest rest' : String}
    (h : creditKey kind rest = creditKey kind' rest') : kind = kind' ∧ rest = rest' := by
  have hl : kind.tag.toList ++ rest.toList = kind'.tag.toList ++ rest'.toList := by
    rw [← String.toList_append, ← String.toList_append]
    exact congrArg String.toList h
  cases kind <;> cases kind' <;> simp_all [EntryKind.tag, String.toList_inj]

/-- The key strings of the credit module. -/
def IsCreditKey (key : String) : Prop :=
  ∃ kind ∈ EntryKind.all, kind.tag.toList <+: key.toList

instance (key : String) : Decidable (IsCreditKey key) :=
  inferInstanceAs (Decidable (∃ kind ∈ EntryKind.all, _))

theorem isCreditKey_creditKey (kind : EntryKind) (rest : String) :
    IsCreditKey (creditKey kind rest) :=
  ⟨kind, kind.mem_all, rest.toList, by rw [creditKey, String.toList_append]⟩

/-! ## Balances -/

def LoanStatus.text : LoanStatus → String
  | disbursing => "disbursing"
  | disbursed => "disbursed"
  | inArrears => "in_arrears"
  | closed => "closed"
  | writtenOff => "written_off"

/-- The balances of a loan as the service computes them. -/
structure Balances where
  outstandingPrincipal : ℚ
  accruedInterest : ℚ
  accruedPenalties : ℚ
  totalPaidPrincipal : ℚ
  totalPaidInterest : ℚ
  totalPaidPenalties : ℚ
  totalWrittenOff : ℚ
deriving DecidableEq, Repr

/-- The balances as read from the row. -/
def Loan.balances (l : Loan) : Balances where
  outstandingPrincipal := l.outstandingPrincipal.val
  accruedInterest := l.accruedInterest.val
  accruedPenalties := l.accruedPenalties.val
  totalPaidPrincipal := l.totalPaidPrincipal.val
  totalPaidInterest := l.totalPaidInterest.val
  totalPaidPenalties := l.totalPaidPenalties.val
  totalWrittenOff := l.totalWrittenOff.val

/-- Flush a loan row: its balances, rounded to the columns, and its status. -/
def saveLoan (l : Loan) (b : Balances) (status : LoanStatus) : Call Loan := do
  let outstandingPrincipal ← writeMoney b.outstandingPrincipal
  let accruedInterest ← writeMoney b.accruedInterest
  let accruedPenalties ← writeMoney b.accruedPenalties
  let totalPaidPrincipal ← writeMoney b.totalPaidPrincipal
  let totalPaidInterest ← writeMoney b.totalPaidInterest
  let totalPaidPenalties ← writeMoney b.totalPaidPenalties
  let totalWrittenOff ← writeMoney b.totalWrittenOff
  constraint (0 ≤ outstandingPrincipal.val) (.integrityError "ck_ln_outstanding_principal")
  constraint (0 ≤ accruedInterest.val) (.integrityError "ck_ln_accrued_interest")
  constraint (0 ≤ accruedPenalties.val) (.integrityError "ck_ln_accrued_penalties")
  let row : Loan := { l with
    status, outstandingPrincipal, accruedInterest, accruedPenalties, totalPaidPrincipal,
    totalPaidInterest, totalPaidPenalties, totalWrittenOff }
  modify (·.putLoan row)
  pure row

/-- The balances have four decimals, so the columns keep them as they are. -/
structure Balances.OnGrid (b : Balances) : Prop where
  outstandingPrincipal : b.outstandingPrincipal ∈ grid 4
  accruedInterest : b.accruedInterest ∈ grid 4
  accruedPenalties : b.accruedPenalties ∈ grid 4
  totalPaidPrincipal : b.totalPaidPrincipal ∈ grid 4
  totalPaidInterest : b.totalPaidInterest ∈ grid 4
  totalPaidPenalties : b.totalPaidPenalties ∈ grid 4
  totalWrittenOff : b.totalWrittenOff ∈ grid 4

theorem Loan.balances_onGrid (l : Loan) : l.balances.OnGrid :=
  ⟨l.outstandingPrincipal.onGrid, l.accruedInterest.onGrid, l.accruedPenalties.onGrid,
    l.totalPaidPrincipal.onGrid, l.totalPaidInterest.onGrid, l.totalPaidPenalties.onGrid,
    l.totalWrittenOff.onGrid⟩

def Balances.round (b : Balances) : Balances where
  outstandingPrincipal := roundAt 4 b.outstandingPrincipal
  accruedInterest := roundAt 4 b.accruedInterest
  accruedPenalties := roundAt 4 b.accruedPenalties
  totalPaidPrincipal := roundAt 4 b.totalPaidPrincipal
  totalPaidInterest := roundAt 4 b.totalPaidInterest
  totalPaidPenalties := roundAt 4 b.totalPaidPenalties
  totalWrittenOff := roundAt 4 b.totalWrittenOff

/-- The parts of a loan that are settled at disbursement and never written again. -/
structure SameTerms (l l' : Loan) : Prop where
  id : l'.id = l.id
  principalAmount : l'.principalAmount = l.principalAmount
  interestMethod : l'.interestMethod = l.interestMethod
  loanApplicationId : l'.loanApplicationId = l.loanApplicationId
  loanProductId : l'.loanProductId = l.loanProductId
  glPrincipalReceivableId : l'.glPrincipalReceivableId = l.glPrincipalReceivableId
  glInterestReceivableId : l'.glInterestReceivableId = l.glInterestReceivableId
  glInterestIncomeId : l'.glInterestIncomeId = l.glInterestIncomeId
  glLoanLossExpenseId : l'.glLoanLossExpenseId = l.glLoanLossExpenseId
  idempotencyKey : l'.idempotencyKey = l.idempotencyKey

/-- What a flush left in the row. -/
structure Saved (l : Loan) (b : Balances) (status : LoanStatus) (row : Loan) : Prop where
  terms : SameTerms l row
  status : row.status = status
  balances : row.balances = b.round
  outstanding_nonneg : 0 ≤ row.outstandingPrincipal.val
  interest_nonneg : 0 ≤ row.accruedInterest.val
  penalties_nonneg : 0 ≤ row.accruedPenalties.val

/-- What the columns of a loan never fall below. -/
structure Loan.Nonneg (l : Loan) : Prop where
  outstanding : 0 ≤ l.outstandingPrincipal.val
  interest : 0 ≤ l.accruedInterest.val
  penalties : 0 ≤ l.accruedPenalties.val

theorem Saved.nonneg {l row : Loan} {b : Balances} {status : LoanStatus}
    (h : Saved l b status row) : row.Nonneg :=
  ⟨h.outstanding_nonneg, h.interest_nonneg, h.penalties_nonneg⟩

theorem saveLoan_ok {l row : Loan} {b : Balances} {status : LoanStatus} {t t' : Tables}
    (h : saveLoan l b status t = .ok row t') : t' = t.putLoan row ∧ Saved l b status row := by
  simp only [saveLoan, writeMoney_bind_eq_ok, constraint_bind_eq_ok, modify_bind_eq_ok,
    pure_eq_ok] at h
  obtain ⟨_, h₁, _, h₂, _, h₃, _, h₄, _, h₅, _, h₆, _, h₇, ho, hi, hp, rfl, rfl⟩ := h
  refine ⟨rfl, ⟨rfl, rfl, rfl, rfl, rfl, rfl, rfl, rfl, rfl, rfl⟩, rfl, ?_, ho, hi, hp⟩
  simp only [Loan.balances, Balances.round, Numeric.val_of_ofRat? h₁, Numeric.val_of_ofRat? h₂,
    Numeric.val_of_ofRat? h₃, Numeric.val_of_ofRat? h₄, Numeric.val_of_ofRat? h₅,
    Numeric.val_of_ofRat? h₆, Numeric.val_of_ofRat? h₇]

theorem loan?_eq_some {t : Tables} {id : Uuid} {l : Loan} (h : t.loan? id = some l) :
    l ∈ t.loans ∧ l.id = id :=
  ⟨List.mem_of_find?_eq_some h, by simpa using List.find?_some h⟩

/-- A row of the table after `row` was written back is `row` or an untouched one. -/
theorem mem_putLoan {t : Tables} {row r : Loan} (h : r ∈ (t.putLoan row).loans) :
    r = row ∨ (r ∈ t.loans ∧ r.id ≠ row.id) := by
  obtain ⟨r₀, hr₀, rfl⟩ := List.mem_map.mp h
  by_cases hid : r₀.id = row.id
  · exact .inl (if_pos hid)
  · rw [if_neg hid]
    exact .inr ⟨hr₀, hid⟩

/-- Looking a loan up after `row` was written back. -/
theorem loan?_putLoan (t : Tables) (row : Loan) (id : Uuid) :
    (t.putLoan row).loan? id = (t.loan? id).map fun r => if r.id = row.id then row else r := by
  unfold Tables.putLoan Tables.loan?
  rw [List.find?_map]
  congr 2
  funext r
  by_cases h : r.id = row.id
  · simp [h]
  · simp [h]

theorem neverRaises_saveLoan (l : Loan) (b : Balances) (status : LoanStatus) :
    NeverRaises (saveLoan l b status) := by
  unfold saveLoan
  iterate 7
    apply neverRaises_bind (neverRaises_writeMoney _)
    intro _
  iterate 3
    apply neverRaises_bind (neverRaises_constraint _ _)
    intro _
  apply neverRaises_bind (neverRaises_modify _)
  intro _
  exact neverRaises_pure _

end SaccoPlatform
