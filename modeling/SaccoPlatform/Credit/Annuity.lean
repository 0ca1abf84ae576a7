import SaccoPlatform.Credit.Replacement

/-!
# The annuity in exact arithmetic

`_reducing_schedule` with its arithmetic as a parameter. In the decimal arithmetic of the code it is
`reducingSchedule`. In exact arithmetic only the `quantize` calls round: every period but the last
pays the rounded annuity, and what the roundings leave has grown with the debt when the last period
pays it.
-/

namespace SaccoPlatform

open Lib

/-- What the operations make of their exact results. -/
structure Arithmetic where
  result : ℚ → ℚ
  power : ℚ → ℤ → Except Err ℚ
  quantize : ℚ → Except Err ℚ

namespace Arithmetic

/-- Python's decimal module. -/
def decimal : Arithmetic := ⟨SaccoPlatform.decimal, decimalPow, quantized⟩

/-- Rationals: only `quantize` rounds. -/
def exact : Arithmetic := ⟨id, fun base n => pure (base ^ n), fun q => pure (roundAt 4 q)⟩

def div (ar : Arithmetic) (a b : ℚ) : Except Err ℚ :=
  if b = 0 then throw .decimalError else pure (ar.result (a / b))

end Arithmetic

def splitRowsIn (ar : Arithmetic) (principal principalResidual interest interestResidual : ℚ) :
    ℕ → List Date → List ScheduledInstallment
  | _, [] => []
  | i, [due] =>
    [⟨i + 1, due, principalResidual, interestResidual,
      ar.result (principalResidual + interestResidual)⟩]
  | i, due :: rest =>
    ⟨i + 1, due, principal, interest, ar.result (principal + interest)⟩ ::
      splitRowsIn ar principal principalResidual interest interestResidual (i + 1) rest

/-- The annuity loop. -/
def annuityRowsIn (ar : Arithmetic) (rate annuity : ℚ) :
    ℕ → ℚ → List Date → Except Err (List ScheduledInstallment)
  | _, _, [] => pure []
  | i, outstanding, due :: rest => do
    let interest ← ar.quantize (ar.result (outstanding * rate))
    let principal ←
      if rest = [] then ar.quantize outstanding else ar.quantize (ar.result (annuity - interest))
    let later ← annuityRowsIn ar rate annuity (i + 1) (ar.result (outstanding - principal)) rest
    pure (⟨i + 1, due, principal, interest, ar.result (principal + interest)⟩ :: later)

/-- `_reducing_schedule`. -/
def reducingScheduleIn (ar : Arithmetic) (principal annualInterestRate : ℚ)
    (frequency : RepaymentFrequency) (termPeriods : ℤ) (disbursementDate : Date) :
    Except Err (List ScheduledInstallment) := do
  let perYear ← periodsPerYear frequency
  let rate ← ar.div (ar.result (annualInterestRate / 100)) perYear
  if rate = 0 then
    let principalPerPeriod ← ar.quantize (← ar.div principal termPeriods)
    let principalResidual :=
      ar.result (principal - ar.result (principalPerPeriod * (termPeriods - 1 : ℤ)))
    let dates ← dueDates frequency termPeriods.toNat disbursementDate
    pure (splitRowsIn ar principalPerPeriod principalResidual 0 0 0 dates)
  else
    let power ← ar.power (ar.result (1 + rate)) termPeriods
    let discount ← ar.div 1 power
    let annuity ←
      ar.quantize (← ar.div (ar.result (principal * rate)) (ar.result (1 - discount)))
    let dates ← dueDates frequency termPeriods.toNat disbursementDate
    annuityRowsIn ar rate annuity 0 principal dates

/-! ## The arithmetic of the code -/

theorem splitRowsIn_decimal (principal principalResidual interest interestResidual : ℚ) (i : ℕ)
    (dates : List Date) :
    splitRowsIn .decimal principal principalResidual interest interestResidual i dates =
      splitRows principal principalResidual interest interestResidual i dates := by
  induction dates generalizing i with
  | nil => rfl
  | cons due rest ih =>
    cases rest with
    | nil => rfl
    | cons due' rest =>
      show _ :: _ = _ :: _
      rw [ih]
      rfl

theorem annuityRowsIn_decimal (rate annuity : ℚ) (i : ℕ) (outstanding : ℚ) (dates : List Date) :
    annuityRowsIn .decimal rate annuity i outstanding dates =
      annuityRows rate annuity i outstanding dates := by
  induction dates generalizing i outstanding with
  | nil => rfl
  | cons due rest ih =>
    rw [annuityRowsIn, annuityRows]
    simp only [ih]
    rfl

/-- The schedule of the code is the one in decimal arithmetic. -/
theorem reducingScheduleIn_decimal (principal annualInterestRate : ℚ)
    (frequency : RepaymentFrequency) (termPeriods : ℤ) (disbursementDate : Date) :
    reducingScheduleIn .decimal principal annualInterestRate frequency termPeriods disbursementDate =
      reducingSchedule principal annualInterestRate frequency termPeriods disbursementDate := by
  unfold reducingScheduleIn reducingSchedule
  simp only [splitRowsIn_decimal, annuityRowsIn_decimal]
  rfl

/-! ## The last payment -/

section

variable {rate annuity balance : ℚ}

/-- What is left of the debt after `k` payments of the annuity, when nothing is rounded on the way;
below zero when too much was paid. -/
def driftAfter (rate annuity balance : ℚ) (k : ℕ) : ℚ :=
  (1 + rate) ^ k * balance - annuity * growthSum rate k

/-- One period with interest `interest` in place of `rate * balance`. -/
theorem driftAfter_succ (interest : ℚ) (k : ℕ) :
    driftAfter rate annuity balance (k + 1) =
      driftAfter rate annuity (balance - (annuity - interest)) k +
        (1 + rate) ^ k * (balance * rate - interest) := by
  unfold driftAfter
  rw [growthSum_succ]
  ring

/-- A period before the last one, in exact arithmetic. -/
theorem annuityRowsIn_exact_next (due due' : Date) (rest : List Date) (i : ℕ)
    (hpay : annuity - roundAt 4 (balance * rate) ∈ grid 4) :
    annuityRowsIn .exact rate annuity i balance (due :: due' :: rest) = (do
      let later ← annuityRowsIn .exact rate annuity (i + 1)
        (balance - (annuity - roundAt 4 (balance * rate))) (due' :: rest)
      pure (⟨i + 1, due, annuity - roundAt 4 (balance * rate), roundAt 4 (balance * rate),
        annuity - roundAt 4 (balance * rate) + roundAt 4 (balance * rate)⟩ :: later)) := by
  have hnotLast : ¬ due' :: rest = [] := List.cons_ne_nil _ _
  rw [annuityRowsIn]
  simp only [Arithmetic.exact, id, pure_bind, if_neg hnotLast, roundAt_of_mem hpay]

/-- Every period but the last pays the annuity, and the last one pays the drift on top, give or take
half a unit for every period's interest, grown to the end. -/
theorem annuityRowsIn_exact (hrate : 0 ≤ rate) (hannuity : annuity ∈ grid 4) (due : Date)
    (rest : List Date) (i : ℕ) (hbalance : balance ∈ grid 4) :
    ∃ rows last, annuityRowsIn .exact rate annuity i balance (due :: rest) = .ok (rows ++ [last]) ∧
      rows.length = rest.length ∧ (∀ row ∈ rows, row.totalDue = annuity) ∧
      |last.totalDue - annuity - driftAfter rate annuity balance (rest.length + 1)| ≤
        growthSum rate (rest.length + 1) / (2 * 10 ^ 4) := by
  have hround := abs_roundAt_sub_le 4 (balance * rate)
  have hinterest : roundAt 4 (balance * rate) ∈ grid 4 := roundAt_mem_grid 4 _
  induction rest generalizing due balance i with
  | nil =>
    refine ⟨[], ⟨i + 1, due, roundAt 4 balance, roundAt 4 (balance * rate),
      roundAt 4 balance + roundAt 4 (balance * rate)⟩, rfl, rfl, nofun, ?_⟩
    have herror : roundAt 4 balance + roundAt 4 (balance * rate) - annuity -
        driftAfter rate annuity balance 1 = roundAt 4 (balance * rate) - balance * rate := by
      rw [roundAt_of_mem hbalance, driftAfter, growthSum, Finset.sum_range_one]
      ring
    show |roundAt 4 balance + roundAt 4 (balance * rate) - annuity - _| ≤ _
    rw [List.length_nil, herror, growthSum, Finset.sum_range_one, pow_zero]
    exact hround
  | cons due' rest ih =>
    have hpay : annuity - roundAt 4 (balance * rate) ∈ grid 4 := sub_mem hannuity hinterest
    have hnext : balance - (annuity - roundAt 4 (balance * rate)) ∈ grid 4 := sub_mem hbalance hpay
    obtain ⟨rows, last, hrows, hlength, htotal, hlast⟩ :=
      ih due' (i + 1) hnext (abs_roundAt_sub_le 4 _) (roundAt_mem_grid 4 _)
    refine ⟨⟨i + 1, due, annuity - roundAt 4 (balance * rate), roundAt 4 (balance * rate),
      annuity - roundAt 4 (balance * rate) + roundAt 4 (balance * rate)⟩ :: rows, last, ?_,
      congrArg (· + 1) hlength, ?_, ?_⟩
    · rw [annuityRowsIn_exact_next due due' rest i hpay, hrows]
      rfl
    · intro row hrow
      rcases List.mem_cons.mp hrow with rfl | hrow
      · exact sub_add_cancel _ _
      · exact htotal row hrow
    · -- the rounding of this period's interest grows over the periods that follow
      have hgrowth : (0 : ℚ) ≤ (1 + rate) ^ (rest.length + 1) := by positivity
      have hgrown : |(1 + rate) ^ (rest.length + 1) * (balance * rate - roundAt 4 (balance * rate))| ≤
          (1 + rate) ^ (rest.length + 1) / (2 * 10 ^ 4) := by
        rw [abs_mul, abs_of_nonneg hgrowth, abs_sub_comm]
        calc (1 + rate) ^ (rest.length + 1) * |roundAt 4 (balance * rate) - balance * rate|
            ≤ (1 + rate) ^ (rest.length + 1) * (1 / (2 * 10 ^ 4)) :=
              mul_le_mul_of_nonneg_left hround hgrowth
          _ = (1 + rate) ^ (rest.length + 1) / (2 * 10 ^ 4) := mul_one_div _ _
      rw [List.length_cons, driftAfter_succ (roundAt 4 (balance * rate)), ← sub_sub,
        growthSum_succ, add_div]
      exact (abs_sub _ _).trans (add_le_add hlast hgrown)

end

/-! ## The schedule -/

section

variable {annualInterestRate : ℚ} {frequency : RepaymentFrequency} {perYear : ℕ} {n : ℤ}
  {d : Date} {dates : List Date}

/-- The annuity before it is rounded leaves nothing. -/
theorem driftAfter_annuity {rate : ℚ} (hrate : 0 < rate) (principal : ℚ) {k : ℕ} (hk : 1 ≤ k) :
    driftAfter rate (principal * rate / (1 - 1 / (1 + rate) ^ k)) principal k = 0 := by
  have hpow : 1 < (1 + rate) ^ k := one_lt_pow₀ (by linarith) (by omega)
  have hgrowth := mul_growthSum rate k
  have hdiscount : (1 + rate) ^ k - 1 ≠ 0 := by linarith
  unfold driftAfter
  field_simp
  rw [hgrowth]
  ring

/-- With a positive period rate the loop runs over the due dates. -/
theorem reducingScheduleIn_exact (principal : ℚ) (hper : periodsPerYear frequency = .ok perYear)
    (hrate : 0 < annualInterestRate / 100 / perYear) (hn : 1 ≤ n)
    (hdates : dueDates frequency n.toNat d = .ok dates) :
    let rate := annualInterestRate / 100 / perYear
    reducingScheduleIn .exact principal annualInterestRate frequency n d =
      annuityRowsIn .exact rate (roundAt 4 (principal * rate / (1 - 1 / (1 + rate) ^ n))) 0
        principal dates := by
  intro rate
  have hperYear : (perYear : ℚ) ≠ 0 := by
    intro hzero
    rw [hzero, div_zero] at hrate
    exact lt_irrefl 0 hrate
  have hpow : 1 < (1 + rate) ^ n := one_lt_zpow₀ (by linarith) (by omega)
  have hdiscount : 1 - 1 / (1 + rate) ^ n ≠ 0 := by
    have := (div_lt_one (by linarith : 0 < (1 + rate) ^ n)).mpr hpow
    linarith
  unfold reducingScheduleIn
  rw [hper, hdates]
  simp only [Arithmetic.exact, Arithmetic.div, id]
  show (if (perYear : ℚ) = 0 then _ else _ : Except Err ℚ) >>= _ = _
  rw [if_neg hperYear]
  show (if rate = 0 then _ else _) = _
  rw [if_neg hrate.ne']
  show (if (1 + rate) ^ n = 0 then _ else _ : Except Err ℚ) >>= _ = _
  rw [if_neg (by linarith : (1 + rate) ^ n ≠ 0)]
  show ((if 1 - 1 / (1 + rate) ^ n = 0 then _ else _ : Except Err ℚ) >>= _) = _
  rw [if_neg hdiscount]
  rfl

/-- All instalments but the last are the rounded annuity, and the last one differs from it by no
more than a unit in every period, grown to the end. -/
theorem reducing_totalDue (principal : Money) (hper : periodsPerYear frequency = .ok perYear)
    (hrate : 0 < annualInterestRate / 100 / perYear) (hn : 1 ≤ n)
    (hdates : dueDates frequency n.toNat d = .ok dates) :
    let r := annualInterestRate / 100 / perYear
    let annuity := roundAt 4 (principal.val * r / (1 - 1 / (1 + r) ^ n))
    ∃ rows last, reducingScheduleIn .exact principal.val annualInterestRate frequency n d =
        .ok (rows ++ [last]) ∧
      rows.length + 1 = n ∧ (∀ row ∈ rows, row.totalDue = annuity) ∧
      |last.totalDue - annuity| ≤ 1 / 10 ^ 4 * (((1 + r) ^ n - 1) / r) := by
  intro r annuity
  have hlength := dueDates_length hdates
  obtain ⟨k, rfl⟩ : ∃ k : ℕ, n = k := ⟨n.toNat, by omega⟩
  rw [Int.toNat_natCast] at hlength
  rw [reducingScheduleIn_exact principal.val hper hrate hn hdates]
  cases dates with
  | nil =>
    rw [List.length_nil] at hlength
    omega
  | cons due rest =>
    obtain ⟨rows, last, hrows, hcount, htotal, hlast⟩ := annuityRowsIn_exact hrate.le
      (roundAt_mem_grid 4 (principal.val * r / (1 - 1 / (1 + r) ^ (k : ℤ)))) due rest 0
      principal.onGrid
    rw [List.length_cons] at hlength
    rw [hlength] at hlast
    refine ⟨rows, last, hrows, by omega, htotal, ?_⟩
    -- the rounding of the annuity is paid in every period
    have hdrift : driftAfter r annuity principal.val k =
        (principal.val * r / (1 - 1 / (1 + r) ^ k) - annuity) * growthSum r k := by
      have hzero := driftAfter_annuity hrate principal.val (k := k) (by omega)
      unfold driftAfter at hzero ⊢
      linarith
    have hsum : growthSum r k = ((1 + r) ^ k - 1) / r :=
      (eq_div_iff hrate.ne').mpr (by rw [mul_comm]; exact mul_growthSum r k)
    have hrounded : |principal.val * r / (1 - 1 / (1 + r) ^ k) - annuity| ≤ 1 / (2 * 10 ^ 4) := by
      rw [abs_sub_comm]
      exact abs_roundAt_sub_le 4 _
    have hpaid : |driftAfter r annuity principal.val k| ≤ growthSum r k / (2 * 10 ^ 4) := by
      rw [hdrift, abs_mul, abs_of_nonneg (growthSum_nonneg hrate.le k)]
      calc |principal.val * r / (1 - 1 / (1 + r) ^ k) - annuity| * growthSum r k
          ≤ 1 / (2 * 10 ^ 4) * growthSum r k :=
            mul_le_mul_of_nonneg_right hrounded (growthSum_nonneg hrate.le k)
        _ = growthSum r k / (2 * 10 ^ 4) := one_div_mul_eq_div _ _
    rw [zpow_natCast, ← hsum]
    calc |last.totalDue - annuity|
        = |(last.totalDue - annuity - driftAfter r annuity principal.val k) +
            driftAfter r annuity principal.val k| := by rw [sub_add_cancel]
      _ ≤ growthSum r k / (2 * 10 ^ 4) + growthSum r k / (2 * 10 ^ 4) :=
          (abs_add_le _ _).trans (add_le_add hlast hpaid)
      _ = 1 / 10 ^ 4 * growthSum r k := by ring

theorem reducing_totalDue_sample :
    ∃ rows last, reducingScheduleIn .exact (money 1000).val 12 .monthly 2 sampleDay =
        .ok (rows ++ [last]) ∧
      rows.length + 1 = (2 : ℤ) ∧ (∀ row ∈ rows, row.totalDue = 5075124 / 10 ^ 4) ∧
      |last.totalDue - 5075124 / 10 ^ 4| ≤ 201 / 10 ^ 6 := by
  obtain ⟨rows, last, hrows, hlength, htotal, hlast⟩ :=
    @reducing_totalDue 12 .monthly 12 2 sampleDay [firstDueDay, ⟨739703, by decide⟩] (money 1000)
      rfl (by norm_num) (by norm_num) (by decide +kernel)
  have hannuity : roundAt 4 ((money 1000).val * (12 / 100 / (12 : ℕ)) /
      (1 - 1 / (1 + 12 / 100 / (12 : ℕ)) ^ (2 : ℤ))) = 5075124 / 10 ^ 4 := by decide +kernel
  rw [hannuity] at htotal hlast
  exact ⟨rows, last, hrows, hlength, htotal, hlast.trans_eq (by norm_num)⟩

end

end SaccoPlatform
