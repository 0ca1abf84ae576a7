import SaccoPlatform.Reporting.Books
import Mathlib.Logic.Function.Basic

/-!
# The report tables

`report_runs` has a row for each materialisation, and each report has a table of lines that point
to the run that wrote them (`app/modules/reporting/models.py`). A line also carries what its table is
cleared by: the date of the report, or its period. Of the run rows only the columns that a query
reads are kept; the fee collection report is left out.
-/

namespace SaccoPlatform.Reporting

open Lib

inductive ReportType where
  | trialBalance | loanPortfolio | incomeStatement | savingsStatement
deriving DecidableEq, Repr

inductive RunStatus where
  | running | done | failed
deriving DecidableEq, Repr

/-- `report_runs`. -/
structure ReportRun where
  id : Uuid
  reportType : ReportType
  asOfDate : Date
  status : RunStatus
deriving DecidableEq

/-- `period_start` and `period_end`. -/
structure Period where
  periodStart : Date
  periodEnd : Date
deriving DecidableEq

/-- What `report_trial_balance_lines` says of an account. -/
structure TrialBalanceRow where
  accountId : Uuid
  accountCode : String
  accountName : String
  accountType : AccountType
  debitTotal : Money
  creditTotal : Money
  balance : Money
deriving DecidableEq, Repr

/-- What `report_income_statement_lines` says of an account. -/
structure IncomeStatementRow where
  accountId : Uuid
  accountCode : String
  accountName : String
  accountType : AccountType
  debitTotal : Money
  creditTotal : Money
  netMovement : Money
deriving DecidableEq, Repr

inductive AgingBucket where
  | current | upTo30 | upTo60 | upTo90 | over90
deriving DecidableEq, Repr

/-- What `report_loan_portfolio_rows` says of a loan. -/
structure LoanPortfolioRow where
  loanId : Uuid
  loanReference : String
  memberId : Uuid
  productName : String
  disbursedAt : Date
  maturityDate : Option Date
  status : LoanStatus
  outstandingPrincipal : Money
  accruedInterest : Money
  totalWrittenOff : Money
  daysInArrears : ℤ
  agingBucket : AgingBucket
deriving DecidableEq

/-- What `report_savings_statement_lines` says of a transaction. -/
structure SavingsStatementRow where
  savingsAccountId : Uuid
  memberId : Uuid
  postedAt : Instant
  transactionType : SavingsTransactionType
  narration : Option String
  amount : Money
  runningBalance : Money
deriving DecidableEq, Repr

namespace ReportType

/-- What the table of a report is cleared by. -/
abbrev Key : ReportType → Type
  | trialBalance => Date
  | loanPortfolio => Date
  | incomeStatement => Period
  | savingsStatement => Period

abbrev Row : ReportType → Type
  | trialBalance => TrialBalanceRow
  | loanPortfolio => LoanPortfolioRow
  | incomeStatement => IncomeStatementRow
  | savingsStatement => SavingsStatementRow

/-- `as_of_date` of the run. -/
def asOf : (r : ReportType) → r.Key → Date
  | trialBalance, asOfDate => asOfDate
  | loanPortfolio, asOfDate => asOfDate
  | incomeStatement, period => period.periodEnd
  | savingsStatement, period => period.periodEnd

instance : (r : ReportType) → DecidableEq r.Key
  | trialBalance => inferInstanceAs (DecidableEq Date)
  | loanPortfolio => inferInstanceAs (DecidableEq Date)
  | incomeStatement => inferInstanceAs (DecidableEq Period)
  | savingsStatement => inferInstanceAs (DecidableEq Period)

instance : (r : ReportType) → DecidableEq r.Row
  | trialBalance => inferInstanceAs (DecidableEq TrialBalanceRow)
  | loanPortfolio => inferInstanceAs (DecidableEq LoanPortfolioRow)
  | incomeStatement => inferInstanceAs (DecidableEq IncomeStatementRow)
  | savingsStatement => inferInstanceAs (DecidableEq SavingsStatementRow)

end ReportType

/-- A line of a report. -/
structure ReportLine (r : ReportType) where
  reportRunId : Uuid
  key : r.Key
  row : r.Row
deriving DecidableEq

/-- `report_runs` and the tables of lines. -/
structure Reports where
  nextId : Uuid
  runs : List ReportRun
  lines : (r : ReportType) → List (ReportLine r)

/-- The tables behind the reports and the tables of the reports. -/
structure Db where
  books : Books
  reports : Reports

/-- Report tables without a row. -/
def Reports.empty : Reports := ⟨0, [], fun _ => []⟩

namespace Reports

variable {r r' : ReportType}

/-- The lines of a run, in the order in which they were added. -/
def linesOf (s : Reports) (r : ReportType) (runId : Uuid) : List (ReportLine r) :=
  (s.lines r).filter fun line => line.reportRunId = runId

/-- `DELETE FROM ... WHERE` on the table of a report. -/
def clear (s : Reports) (r : ReportType) (key : r.Key) : Reports :=
  { s with lines := Function.update s.lines r ((s.lines r).filter fun line => line.key ≠ key) }

/-- `session.add_all(lines)`. -/
def addLines (s : Reports) (r : ReportType) (lines : List (ReportLine r)) : Reports :=
  { s with lines := Function.update s.lines r (s.lines r ++ lines) }

/-- A new row of `report_runs`, with `status='running'`. -/
def addRun (s : Reports) (r : ReportType) (asOfDate : Date) : Reports :=
  { s with nextId := s.nextId + 1, runs := s.runs ++ [⟨s.nextId, r, asOfDate, .running⟩] }

def setStatus (s : Reports) (runId : Uuid) (status : RunStatus) : Reports :=
  { s with runs := s.runs.map fun run => if run.id = runId then { run with status } else run }

/-- The runs of a report that have the status `done`. -/
def doneRuns (s : Reports) (r : ReportType) : List ReportRun :=
  s.runs.filter fun run => run.reportType = r ∧ run.status = .done

end Reports

end SaccoPlatform.Reporting
