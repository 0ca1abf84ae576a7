import SaccoPlatform.Credit.Beat

/-!
# Penalty eligibility

`find_loans_eligible_for_fee` (`app/modules/credit/services/query.py`), the query by which
the fees engine finds the loans that owe a penalty.
-/

namespace SaccoPlatform

open Lib

/-- One row of the result. -/
structure EligibleLoan where
  loanId : Uuid
  memberId : Uuid
  outstandingPrincipal : Money
  daysPastDue : ℤ
deriving DecidableEq

/-- `(as_of_date - min(due_date)).days` over the overdue instalments, if there is one. -/
def Tables.daysPastDue (t : Tables) (asOf : Date) (loanId : Uuid) : Option ℤ :=
  match (t.overdueInstallments asOf loanId).map (·.dueDate.ordinal) with
  | [] => none
  | n :: rest => some (asOf.ordinal - (rest.foldl min n : ℕ))

/-- `find_loans_eligible_for_fee`. -/
def Tables.findLoansEligibleForFee (t : Tables) (asOf : Date) (minDaysPastDue : ℤ) :
    List EligibleLoan :=
  (t.loans.filter fun l => l.Active).filterMap fun l =>
    match t.daysPastDue asOf l.id with
    | none => none
    | some days =>
      if minDaysPastDue ≤ days then some ⟨l.id, l.memberId, l.outstandingPrincipal, days⟩
      else none

end SaccoPlatform
