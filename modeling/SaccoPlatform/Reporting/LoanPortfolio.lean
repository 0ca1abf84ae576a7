import SaccoPlatform.Credit.Balances
import SaccoPlatform.Reporting.Materialize

/-!
# The loan portfolio

`LoanPortfolioService` (`app/modules/reporting/services/loan_portfolio.py`). The figures are the
snapshot columns of the loans; the days in arrears are counted from the earliest instalment that is
marked overdue, up to the day of the call.
-/

namespace SaccoPlatform.Reporting

open Lib Session

/-- `MIN` over dates. -/
def earliest : List Date → Option Date
  | [] => none
  | d :: ds =>
    match earliest ds with
    | none => some d
    | some e => some (if d ≤ e then d else e)

theorem earliest_eq_none {ds : List Date} : earliest ds = none ↔ ds = [] := by
  cases ds with
  | nil => simp [earliest]
  | cons d ds =>
    unfold earliest
    split <;> simp

theorem earliest_eq_some {ds : List Date} {d : Date} :
    earliest ds = some d ↔ d ∈ ds ∧ ∀ e ∈ ds, d ≤ e := by
  induction ds generalizing d with
  | nil => simp [earliest]
  | cons c ds ih =>
    unfold earliest
    split
    · rename_i hnone
      rw [earliest_eq_none.mp hnone]
      constructor
      · intro h
        cases h
        refine ⟨List.mem_cons_self, ?_⟩
        intro e he
        rw [List.mem_singleton.mp he]
        exact Nat.le_refl _
      · intro h
        rw [List.mem_singleton.mp h.1]
    · rename_i m hm
      obtain ⟨hmem, hmin⟩ := ih.mp hm
      by_cases hle : c ≤ m
      · rw [if_pos hle]
        constructor
        · intro h
          cases h
          refine ⟨List.mem_cons_self, ?_⟩
          intro e he
          rcases List.mem_cons.mp he with rfl | he
          · exact Nat.le_refl _
          · exact Nat.le_trans hle (hmin e he)
        · rintro ⟨hd, hall⟩
          have hdc : d ≤ c := hall c List.mem_cons_self
          rcases List.mem_cons.mp hd with rfl | hd
          · rfl
          · have hcd : c ≤ d := Nat.le_trans hle (hmin d hd)
            exact congrArg some (Date.ext_ordinal (Nat.le_antisymm hcd hdc))
      · rw [if_neg hle]
        have hlt : m < c := Nat.lt_of_not_le hle
        constructor
        · intro h
          cases h
          refine ⟨List.mem_cons_of_mem _ hmem, ?_⟩
          intro e he
          rcases List.mem_cons.mp he with rfl | he
          · exact Nat.le_of_lt hlt
          · exact hmin e he
        · rintro ⟨hd, hall⟩
          have hdm : d ≤ m := hall m (List.mem_cons_of_mem _ hmem)
          rcases List.mem_cons.mp hd with rfl | hd
          · exact absurd hdm hle
          · exact congrArg some (Date.ext_ordinal (Nat.le_antisymm (hmin d hd) hdm))

/-- `_aging_bucket`. -/
def agingBucket (days : ℤ) : AgingBucket :=
  if days = 0 then .current
  else if days ≤ 30 then .upTo30
  else if days ≤ 60 then .upTo60
  else if days ≤ 90 then .upTo90
  else .over90

/-- The `earliest_overdue` of a loan; superseded rows do not count. -/
def earliestOverdue (t : Tables) (loanId : Uuid) : Option Date :=
  earliest ((t.installments.filter fun inst =>
    inst.loanId = loanId ∧ inst.status = .overdue ∧ inst.isSuperseded = false).map (·.dueDate))

/-- The days in arrears that are reported on the day `today`. -/
def daysInArrears (t : Tables) (today : Date) (loan : Loan) : ℤ :=
  match earliestOverdue t loan.id with
  | some due => if loan.status = .inArrears then (today.ordinal : ℤ) - due.ordinal else 0
  | none => 0

/-- The loans in question, each with its product. -/
def portfolioLoans (t : Tables) : List (Loan × LoanProduct) :=
  ((t.loans.filter fun loan =>
    loan.status = .disbursed ∨ loan.status = .inArrears ∨ loan.status = .writtenOff ∨
      loan.status = .closed).flatMap fun loan =>
    (t.products.filter (·.id = loan.loanProductId)).map (loan, ·)).insertionSort
      fun x y => x.1.loanReference ≤ y.1.loanReference

theorem mem_portfolioLoans {t : Tables} {loan : Loan} {product : LoanProduct} :
    (loan, product) ∈ portfolioLoans t ↔ loan ∈ t.loans ∧ loan.status ≠ .disbursing ∧
      product ∈ t.products ∧ product.id = loan.loanProductId := by
  rw [portfolioLoans, List.mem_insertionSort, List.mem_flatMap]
  constructor
  · rintro ⟨loan', hloan, hmem⟩
    obtain ⟨product', hproduct, heq⟩ := List.mem_map.mp hmem
    cases heq
    rw [List.mem_filter, decide_eq_true_eq] at hloan hproduct
    refine ⟨hloan.1, ?_, hproduct⟩
    intro hstatus
    simp [hstatus] at hloan
  · rintro ⟨hloan, hstatus, hproduct, hid⟩
    refine ⟨loan, List.mem_filter.mpr ⟨hloan, ?_⟩, List.mem_map.mpr ⟨product, ?_, rfl⟩⟩
    · cases hcase : loan.status <;> simp [hcase] at hstatus ⊢
    · exact List.mem_filter.mpr ⟨hproduct, decide_eq_true hid⟩

def Books.portfolioRow (b : Books) (asOfDate today : Date) (loan : Loan) (product : LoanProduct) :
    LoanPortfolioRow where
  loanId := loan.id
  loanReference := loan.loanReference
  memberId := loan.memberId
  productName := b.columns.productName product.id
  disbursedAt := (b.columns.disbursedAt loan.id).getD asOfDate
  maturityDate := loan.maturityDate
  status := loan.status
  outstandingPrincipal := loan.outstandingPrincipal
  accruedInterest := loan.accruedInterest
  totalWrittenOff := loan.totalWrittenOff
  daysInArrears := daysInArrears b.tables today loan
  agingBucket := agingBucket (daysInArrears b.tables today loan)

namespace LoanPortfolioService

/-- The query of `materialize`, made on the day `today`. -/
def select (asOfDate today : Date) : Session Books Err (List LoanPortfolioRow) := do
  let b ← get
  pure ((portfolioLoans b.tables).map fun (loan, product) => b.portfolioRow asOfDate today loan product)

def materialize (asOfDate today : Date) : Session Db Err ReportRun :=
  Reporting.materialize .loanPortfolio asOfDate (select asOfDate today)

/-- The rows that `get_loan_portfolio` shows for a `status`. -/
def shown (status : Option String) (line : ReportLine .loanPortfolio) : Bool :=
  ∀ s ∈ status, s ≠ "all" → line.row.status.text = s

/-- `get_loan_portfolio`. -/
def getLoanPortfolio (db : Db) (asOfDate : Option Date) (status : Option String) :
    List (Option ReportRun × List (ReportLine .loanPortfolio)) :=
  db.reports.answers (newest (ofDate asOfDate (db.reports.doneRuns .loanPortfolio))) (shown status)
    fun x y => x.row.loanReference ≤ y.row.loanReference

end LoanPortfolioService

end SaccoPlatform.Reporting
