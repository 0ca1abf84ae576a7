import SaccoPlatform.Database
import SaccoPlatform.Lib.DecimalError

/-!
# Amortisation schedules

`compute_schedule` (`app/modules/credit/services/_schedule.py`): flat and reducing-balance
schedules. Every operation is one of Python's decimal module in its default context of 28
digits, and amounts are quantized to four decimals, half up. A schedule fails when the
frequency has no number of periods per year, when a division by a term of zero periods
comes up, when an amount outgrows the context, and when a due date leaves the calendar.
-/

namespace SaccoPlatform

open Lib

/-- `ScheduledInstallment`. -/
structure ScheduledInstallment where
  periodNumber : ℤ
  dueDate : Date
  principalDue : ℚ
  interestDue : ℚ
  totalDue : ℚ
deriving DecidableEq

/-- The result of one decimal operation. -/
def decimal (q : ℚ) : ℚ := inContext 28 q

section

variable {a b q : ℚ}

theorem decimal_of_mem (hq : q ∈ grid 4) (hfits : |q| < 10 ^ 24) : decimal q = q := by
  apply inContext_of_mem hq
  calc |q| * 10 ^ 4 < 10 ^ 24 * 10 ^ 4 := by gcongr
    _ = 10 ^ 28 := by norm_num

theorem decimal_mem_grid (hq : q ∈ grid 4) : decimal q ∈ grid 4 := inContext_mem_grid hq

theorem decimal_zero : decimal 0 = 0 := by
  rw [decimal, inContext, if_pos rfl]

theorem decimal_nonneg (hq : 0 ≤ q) : 0 ≤ decimal q := inContext_nonneg (by norm_num) hq

theorem decimal_pos (hq : 0 < q) : 0 < decimal q := inContext_pos (by norm_num) hq

theorem decimal_mono (h : a ≤ b) : decimal a ≤ decimal b := inContext_mono (by norm_num) h

theorem decimal_nonpos (hq : q ≤ 0) : decimal q ≤ 0 := decimal_zero ▸ decimal_mono hq

theorem decimal_neg (q : ℚ) : decimal (-q) = -decimal q := inContext_neg 28 q

theorem decimal_of_mem_five (hq : q ∈ grid 5) (hfits : |q| < 10 ^ 23) : decimal q = q := by
  apply inContext_of_mem hq
  calc |q| * 10 ^ 5 < 10 ^ 23 * 10 ^ 5 := by gcongr
    _ = 10 ^ 28 := by norm_num

/-- A value with five decimals bounds what is kept of a smaller one. -/
theorem decimal_le (hb : b ∈ grid 5) (hfits : |b| < 10 ^ 23) (h : a ≤ b) : decimal a ≤ b :=
  (decimal_mono h).trans_eq (decimal_of_mem_five hb hfits)

theorem le_decimal (ha : a ∈ grid 5) (hfits : |a| < 10 ^ 23) (h : a ≤ b) : a ≤ decimal b :=
  (decimal_of_mem_five ha hfits).symm.trans_le (decimal_mono h)

end

/-- Decimal division. -/
def decimalDiv (a b : ℚ) : Except Err ℚ :=
  if b = 0 then throw .decimalError else pure (decimal (a / b))

/-- `x.quantize(Decimal("0.0001"), rounding=ROUND_HALF_UP)`. -/
def quantized (q : ℚ) : Except Err ℚ :=
  match quantize? 28 4 q with
  | some r => pure r
  | none => throw .decimalError

/-- `base ** n`: the exact power, rounded once. It overflows past the largest exponent of the
context. -/
def decimalPow (base : ℚ) (n : ℤ) : Except Err ℚ :=
  if 999999 < leadingExponent (decimal (base ^ n)) then throw .decimalError
  else pure (decimal (base ^ n))

/-- `_PERIODS_PER_YEAR[repayment_frequency]`. -/
def periodsPerYear : RepaymentFrequency → Except Err ℕ
  | .weekly => pure 52
  | .biweekly => pure 26
  | .monthly => pure 12
  | .quarterly => pure 4
  | .lumpSum => throw (.keyError "lump_sum")

/-- `current + timedelta(weeks=w)`. -/
def addWeeks (d : Date) (weeks : ℤ) : Except Err Date :=
  match d.addDays? (7 * weeks) with
  | some d' => pure d'
  | none => throw .overflowError

/-- `_add_months`. -/
def addMonths (d : Date) (months : ℤ) : Except Err Date :=
  match d.addMonths? months with
  | some d' => pure d'
  | none => throw (.valueError "year is out of range")

def nextDueDate (d : Date) : RepaymentFrequency → Except Err Date
  | .weekly => addWeeks d 1
  | .biweekly => addWeeks d 2
  | .monthly => addMonths d 1
  | .quarterly => addMonths d 3
  | .lumpSum => throw (.valueError "Unknown repayment_frequency: 'lump_sum'")

/-- `_due_dates`: each date is one period after the one before it. -/
def dueDates (frequency : RepaymentFrequency) : ℕ → Date → Except Err (List Date)
  | 0, _ => pure []
  | n + 1, current => do
    let next ← nextDueDate current frequency
    let rest ← dueDates frequency n next
    pure (next :: rest)

/-- Equal parts with the rounding residual on the last period. -/
def splitRows (principal principalResidual interest interestResidual : ℚ) :
    ℕ → List Date → List ScheduledInstallment
  | _, [] => []
  | i, [due] =>
    [⟨i + 1, due, principalResidual, interestResidual,
      decimal (principalResidual + interestResidual)⟩]
  | i, due :: rest =>
    ⟨i + 1, due, principal, interest, decimal (principal + interest)⟩ ::
      splitRows principal principalResidual interest interestResidual (i + 1) rest

/-- `_flat_schedule`. -/
def flatSchedule (principal annualInterestRate : ℚ) (frequency : RepaymentFrequency)
    (termPeriods : ℤ) (disbursementDate : Date) : Except Err (List ScheduledInstallment) := do
  let perYear ← periodsPerYear frequency
  let rate := decimal (annualInterestRate / 100)
  let years ← decimalDiv termPeriods perYear
  let totalInterest ← quantized (decimal (decimal (principal * rate) * years))
  let interestPerPeriod ← quantized (← decimalDiv totalInterest termPeriods)
  let principalPerPeriod ← quantized (← decimalDiv principal termPeriods)
  let interestResidual :=
    decimal (totalInterest - decimal (interestPerPeriod * (termPeriods - 1 : ℤ)))
  let principalResidual :=
    decimal (principal - decimal (principalPerPeriod * (termPeriods - 1 : ℤ)))
  let dates ← dueDates frequency termPeriods.toNat disbursementDate
  pure (splitRows principalPerPeriod principalResidual interestPerPeriod interestResidual 0 dates)

/-- The annuity loop: the last period pays the principal that is left. -/
def annuityRows (rate annuity : ℚ) :
    ℕ → ℚ → List Date → Except Err (List ScheduledInstallment)
  | _, _, [] => pure []
  | i, outstanding, due :: rest => do
    let interest ← quantized (decimal (outstanding * rate))
    let principal ←
      if rest = [] then quantized outstanding else quantized (decimal (annuity - interest))
    let later ← annuityRows rate annuity (i + 1) (decimal (outstanding - principal)) rest
    pure (⟨i + 1, due, principal, interest, decimal (principal + interest)⟩ :: later)

/-- `_reducing_schedule`. -/
def reducingSchedule (principal annualInterestRate : ℚ) (frequency : RepaymentFrequency)
    (termPeriods : ℤ) (disbursementDate : Date) : Except Err (List ScheduledInstallment) := do
  let perYear ← periodsPerYear frequency
  let rate ← decimalDiv (decimal (annualInterestRate / 100)) perYear
  if rate = 0 then
    let principalPerPeriod ← quantized (← decimalDiv principal termPeriods)
    let principalResidual :=
      decimal (principal - decimal (principalPerPeriod * (termPeriods - 1 : ℤ)))
    let dates ← dueDates frequency termPeriods.toNat disbursementDate
    pure (splitRows principalPerPeriod principalResidual 0 0 0 dates)
  else
    let power ← decimalPow (decimal (1 + rate)) termPeriods
    let discount ← decimalDiv 1 power
    let annuity ←
      quantized (← decimalDiv (decimal (principal * rate)) (decimal (1 - discount)))
    let dates ← dueDates frequency termPeriods.toNat disbursementDate
    annuityRows rate annuity 0 principal dates

/-- `compute_schedule`. -/
def computeSchedule (principal annualInterestRate : ℚ) (method : InterestMethod)
    (frequency : RepaymentFrequency) (termPeriods : ℤ) (disbursementDate : Date) :
    Except Err (List ScheduledInstallment) :=
  match method with
  | .flat => flatSchedule principal annualInterestRate frequency termPeriods disbursementDate
  | .reducingBalance =>
    reducingSchedule principal annualInterestRate frequency termPeriods disbursementDate

end SaccoPlatform
