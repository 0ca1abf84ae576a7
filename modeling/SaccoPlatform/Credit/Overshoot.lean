import SaccoPlatform.Credit.Amortisation
import Mathlib.Algebra.Field.GeomSum
import Mathlib.Algebra.Order.Ring.Pow

/-!
# Schedules that overshoot

The periods before the last one pay an amount that is rounded once and used `n - 1` times. When it
was rounded up, the residue on the last period can be negative, and the table refuses it. Splitting
an amount of `N` units over `n` periods leaves `N / n + N % n` units, less a unit for every period
but the last when the part was rounded up. An annuity that was rounded up pays the debt down to
nothing too early, and from there on the debt is below zero.
-/

namespace SaccoPlatform

open Lib

/-- `ck_li_principal_due` and `ck_li_interest_due`. -/
def NonnegativeDues (rows : List ScheduledInstallment) : Prop :=
  ∀ row ∈ rows, 0 ≤ row.principalDue ∧ 0 ≤ row.interestDue

theorem decimalDiv_eq_ok {a b q : ℚ} (h : decimalDiv a b = .ok q) : b ≠ 0 ∧ q = decimal (a / b) := by
  unfold decimalDiv at h
  split at h
  · cases h
  · next hb => exact ⟨hb, (Except.ok.inj h).symm⟩

theorem decimalPow_eq_ok {base q : ℚ} {n : ℤ} (h : decimalPow base n = .ok q) :
    q = decimal (base ^ n) := by
  unfold decimalPow at h
  split at h
  · cases h
  · exact (Except.ok.inj h).symm

/-! ## Equal parts -/

/-- Splitting `units` over `n` periods leaves something for the last one: the part was not rounded
up, or what it was rounded up by is covered by what is left. -/
def SplitFits (units n : ℤ) : Prop := 2 * (units % n) < n ∨ n - 1 ≤ units / n + units % n

instance (units n : ℤ) : Decidable (SplitFits units n) := inferInstanceAs (Decidable (_ ∨ _))

/-- An amount in units of the grid. -/
def unitsOf (amount : ℚ) : ℤ := ⌊amount * 10 ^ 4⌋

theorem unitsOf_div {units : ℤ} : unitsOf (units / 10 ^ 4 : ℚ) = units := by
  rw [unitsOf, div_mul_cancel₀ _ (by norm_num)]
  exact Int.floor_intCast units

section

variable {units n : ℤ}

/-- The quotient, rounded half up. -/
theorem roundAt_units_div (hunits : 0 ≤ units) (hn : 1 ≤ n) :
    roundAt 4 ((units / 10 ^ 4 : ℚ) / n) =
      ((if 2 * (units % n) < n then units / n else units / n + 1 : ℤ) : ℚ) / 10 ^ 4 := by
  have hn' : (0 : ℚ) < n := by exact_mod_cast hn
  have hunits' : (0 : ℚ) ≤ units := by exact_mod_cast hunits
  have hmod := Int.emod_nonneg units (by omega : n ≠ 0)
  have hlt := Int.emod_lt_of_pos units (by omega : 0 < n)
  have hdiv := Int.mul_ediv_add_emod units n
  rw [roundAt, if_pos (by positivity)]
  congr 2
  rw [Int.floor_eq_iff]
  have hscaled : (units / 10 ^ 4 : ℚ) / n * 10 ^ 4 + 1 / 2 = (2 * units + n) / (2 * n) := by
    field_simp
  rw [hscaled, le_div_iff₀ (by positivity), div_lt_iff₀ (by positivity)]
  have hdiv' : (2 * units + n : ℚ) = 2 * n * (units / n : ℤ) + (2 * (units % n) + n : ℤ) := by
    exact_mod_cast (by linarith : 2 * units + n = 2 * n * (units / n) + (2 * (units % n) + n))
  rw [hdiv']
  split
  · next hdown =>
    have hlow : ((0 : ℤ) : ℚ) ≤ (2 * (units % n) + n : ℤ) := by exact_mod_cast (by omega)
    have hhigh : ((2 * (units % n) + n : ℤ) : ℚ) < (2 * n : ℤ) := by exact_mod_cast (by omega)
    push_cast at hlow hhigh ⊢
    constructor <;> linarith
  · next hup =>
    have hlow : ((2 * n : ℤ) : ℚ) ≤ (2 * (units % n) + n : ℤ) := by exact_mod_cast (by omega)
    have hhigh : ((2 * (units % n) + n : ℤ) : ℚ) < (4 * n : ℤ) := by exact_mod_cast (by omega)
    push_cast at hlow hhigh ⊢
    constructor <;> linarith

/-- A quotient with room in the context is a tie, which is kept, or too far from one for the context
to reach it. -/
theorem equalPart_eq_roundAt (hunits : 0 ≤ units) (hle : units < 10 ^ 27) (hn : 1 ≤ n) :
    equalPart (units / 10 ^ 4) n = roundAt 4 ((units / 10 ^ 4 : ℚ) / n) := by
  have hn' : (1 : ℚ) ≤ n := by exact_mod_cast hn
  have hpos : (0 : ℚ) < n := by linarith
  have hunits' : (0 : ℚ) ≤ units := by exact_mod_cast hunits
  have hle' : (units : ℚ) < 10 ^ 27 := by exact_mod_cast hle
  have hquot : 0 ≤ (units / 10 ^ 4 : ℚ) / n := by positivity
  unfold equalPart
  by_cases htie : ∃ k : ℤ, 2 * units = (2 * k + 1) * n
  · obtain ⟨k, hk⟩ := htie
    have hk' : (2 * units : ℚ) = (2 * k + 1) * n := by exact_mod_cast hk
    have hkept : decimal ((units / 10 ^ 4 : ℚ) / n) = (units / 10 ^ 4 : ℚ) / n := by
      apply inContext_of_mem (s := 5)
      · refine mem_grid.mpr ⟨10 * k + 5, ?_⟩
        push_cast
        field_simp
        linarith
      · have hle'' : (units / 10 ^ 4 : ℚ) / n ≤ units / 10 ^ 4 := div_le_self (by positivity) hn'
        rw [abs_of_nonneg hquot]
        norm_num at hle' hle'' ⊢
        linarith
    rw [hkept]
  · apply roundAt_eq_of_close (abs_decimal_sub_le _)
    rintro ⟨k, hk⟩
    apply htie
    refine ⟨k, ?_⟩
    -- the distance to a tie is a whole number of parts, and less than one
    have hdist : |(2 * units - (2 * k + 1) * n : ℚ)| < 1 := by
      have hscale : (units / 10 ^ 4 : ℚ) / n - (k + 1 / 2) / 10 ^ 4 =
          (2 * units - (2 * k + 1) * n) / (2 * 10 ^ 4 * n) := by
        field_simp
      rw [hscale, abs_of_nonneg hquot, abs_div,
        abs_of_pos (by positivity : (0 : ℚ) < 2 * 10 ^ 4 * n), div_le_iff₀ (by positivity)] at hk
      calc |(2 * units - (2 * k + 1) * n : ℚ)|
          ≤ (units / 10 ^ 4 : ℚ) / n * (5 / 10 ^ 28) * (2 * 10 ^ 4 * n) := hk
        _ = units / 10 ^ 27 := by
          field_simp
          ring
        _ < 1 := by
          rw [div_lt_one (by norm_num)]
          exact hle'
    have hint : |2 * units - (2 * k + 1) * n| < 1 := by exact_mod_cast hdist
    have hzero := Int.abs_lt_one_iff.mp hint
    linarith

/-- What is left for the last period. -/
theorem residue_units (hunits : 0 ≤ units) (hle : units < 10 ^ 27) (hn : 1 ≤ n) :
    residue (units / 10 ^ 4) n = ((if 2 * (units % n) < n then units / n + units % n
      else units / n + units % n - (n - 1) : ℤ) : ℚ) / 10 ^ 4 := by
  have hdiv := Int.mul_ediv_add_emod units n
  rw [residue, equalPart_eq_roundAt hunits hle hn, roundAt_units_div hunits hn]
  split
  · rw [div_mul_eq_mul_div, ← sub_div]
    congr 1
    exact_mod_cast (by linarith : units - units / n * (n - 1) = units / n + units % n)
  · rw [div_mul_eq_mul_div, ← sub_div]
    congr 1
    exact_mod_cast (by linarith :
      units - (units / n + 1) * (n - 1) = units / n + units % n - (n - 1))

theorem residue_nonneg_iff (hunits : 0 ≤ units) (hle : units < 10 ^ 27) (hn : 1 ≤ n) :
    0 ≤ residue (units / 10 ^ 4) n ↔ SplitFits units n := by
  have hmod := Int.emod_nonneg units (by omega : n ≠ 0)
  have hquot := Int.ediv_nonneg hunits (by omega : 0 ≤ n)
  have hp : (0 : ℚ) < 10 ^ 4 := by norm_num
  rw [residue_units hunits hle hn, le_div_iff₀ hp, zero_mul, Int.cast_nonneg_iff]
  unfold SplitFits
  split <;> omega

end

theorem splitRows_nonneg_iff {p pr q qr : ℚ} (hp : 0 ≤ p) (hq : 0 ≤ q) (i : ℕ) (due : Date)
    (rest : List Date) :
    NonnegativeDues (splitRows p pr q qr i (due :: rest)) ↔ 0 ≤ pr ∧ 0 ≤ qr := by
  constructor
  · intro h
    obtain ⟨row, hrow, hpr, hqr⟩ : ∃ row ∈ splitRows p pr q qr i (due :: rest), _ :=
      splitRows_last i due rest
    rw [← hpr, ← hqr]
    exact h row hrow
  · intro h row hrow
    obtain ⟨⟨hpr, hqr⟩ | ⟨hpr, hqr⟩, -⟩ := splitRows_mem hrow
    · rw [hpr, hqr]
      exact ⟨hp, hq⟩
    · rw [hpr, hqr]
      exact h

/-! ## Annuities -/

section

variable {rate annuity balance : ℚ}

theorem periodInterest_nonneg (hrate : 0 ≤ rate) (hbalance : 0 ≤ balance) :
    0 ≤ periodInterest rate balance := roundAt_nonneg (decimal_nonneg (mul_nonneg hbalance hrate))

theorem periodInterest_nonpos (hrate : 0 ≤ rate) (hbalance : balance ≤ 0) :
    periodInterest rate balance ≤ 0 := by
  have hround : roundAt 4 0 = 0 := roundAt_of_mem (zero_mem _)
  unfold periodInterest
  rw [← hround]
  exact roundAt_mono (decimal_nonpos (mul_nonpos_of_nonpos_of_nonneg hbalance hrate))

theorem periodInterest_mono {balance' : ℚ} (hrate : 0 ≤ rate) (hle : balance ≤ balance') :
    periodInterest rate balance ≤ periodInterest rate balance' :=
  roundAt_mono (decimal_mono (mul_le_mul_of_nonneg_right hle hrate))

/-- Once below zero the debt stays there. -/
theorem debtAfter_neg (hrate : 0 ≤ rate) (hannuity : 0 ≤ annuity) (k : ℕ) (hneg : balance < 0) :
    debtAfter rate annuity k balance < 0 := by
  induction k generalizing balance with
  | zero => exact hneg
  | succ k ih =>
    apply ih
    have := periodInterest_nonpos hrate hneg.le
    linarith

/-- The last round of the annuity loop pays what is left. -/
theorem annuityRows_last {due : Date} {i : ℕ} {rows : List ScheduledInstallment}
    (h : annuityRows rate annuity i balance [due] = .ok rows) :
    rows = [⟨i + 1, due, roundAt 4 balance, periodInterest rate balance,
      decimal (roundAt 4 balance + periodInterest rate balance)⟩] := by
  rw [annuityRows] at h
  obtain ⟨interest, hinterest, h⟩ := except_bind_eq_ok.mp h
  obtain ⟨-, rfl⟩ := quantized_eq_ok.mp hinterest
  dsimp only at h
  rw [if_pos rfl] at h
  obtain ⟨principal, hprincipal, h⟩ := except_bind_eq_ok.mp h
  obtain ⟨-, rfl⟩ := quantized_eq_ok.mp hprincipal
  exact (Except.ok.inj h).symm

/-- Every other round pays the annuity, less the interest. -/
theorem annuityRows_next {due due' : Date} {rest : List Date} {i : ℕ}
    {rows : List ScheduledInstallment}
    (h : annuityRows rate annuity i balance (due :: due' :: rest) = .ok rows) :
    ∃ later, annuityRows rate annuity (i + 1)
        (decimal (balance - roundAt 4 (decimal (annuity - periodInterest rate balance))))
        (due' :: rest) = .ok later ∧
      rows = ⟨i + 1, due, roundAt 4 (decimal (annuity - periodInterest rate balance)),
        periodInterest rate balance, decimal (roundAt 4 (decimal (annuity -
          periodInterest rate balance)) + periodInterest rate balance)⟩ :: later := by
  rw [annuityRows] at h
  obtain ⟨interest, hinterest, h⟩ := except_bind_eq_ok.mp h
  obtain ⟨-, rfl⟩ := quantized_eq_ok.mp hinterest
  dsimp only at h
  rw [if_neg (List.cons_ne_nil _ _)] at h
  obtain ⟨principal, hprincipal, h⟩ := except_bind_eq_ok.mp h
  obtain ⟨later, hlater, h⟩ := except_bind_eq_ok.mp h
  obtain ⟨-, rfl⟩ := quantized_eq_ok.mp hprincipal
  exact ⟨later, hlater, (Except.ok.inj h).symm⟩

/-- A debt below zero is on the last instalment, whatever the digits that were lost. -/
theorem annuityRows_neg (hrate : 0 ≤ rate) (hpos : 0 ≤ annuity)
    (due : Date) (rest : List Date) (i : ℕ) (hgrid : balance ∈ grid 4) (hneg : balance < 0)
    {rows : List ScheduledInstallment}
    (h : annuityRows rate annuity i balance (due :: rest) = .ok rows) :
    ∃ row ∈ rows, row.principalDue < 0 := by
  induction rest generalizing due i balance rows with
  | nil =>
    obtain rfl := annuityRows_last h
    refine ⟨_, List.mem_cons_self, ?_⟩
    rw [roundAt_of_mem hgrid]
    exact hneg
  | cons due' rest ih =>
    obtain ⟨later, hlater, rfl⟩ := annuityRows_next h
    have hpaid : 0 ≤ roundAt 4 (decimal (annuity - periodInterest rate balance)) := by
      have hinterest := periodInterest_nonpos hrate hneg.le
      exact roundAt_nonneg (decimal_nonneg (by linarith))
    have hnext : decimal (balance - roundAt 4 (decimal (annuity - periodInterest rate balance))) < 0 :=
      inContext_lt_zero (by norm_num) (by linarith)
    obtain ⟨row, hrow, hdue⟩ := ih due' (i + 1)
      (decimal_mem_grid (sub_mem hgrid (roundAt_mem_grid 4 _))) hnext hlater
    exact ⟨row, List.mem_cons_of_mem _ hrow, hdue⟩

/-- The dues of an annuity are all payable just when its payments before the last one do not exceed
the debt. -/
theorem annuityRows_nonneg_iff (hrate : 0 ≤ rate) (hannuity : annuity ∈ grid 4)
    (hfits : annuity < 10 ^ 24) (due : Date) (rest : List Date) (i : ℕ) (hgrid : balance ∈ grid 4)
    (hbalance : 0 ≤ balance) (hle : balance ≤ 10 ^ 22) (hcover : periodInterest rate balance ≤ annuity)
    {rows : List ScheduledInstallment}
    (h : annuityRows rate annuity i balance (due :: rest) = .ok rows) :
    NonnegativeDues rows ↔ 0 ≤ debtAfter rate annuity rest.length balance := by
  induction rest generalizing due i balance rows with
  | nil =>
    obtain rfl := annuityRows_last h
    have hdues : NonnegativeDues [⟨i + 1, due, roundAt 4 balance, periodInterest rate balance,
        decimal (roundAt 4 balance + periodInterest rate balance)⟩] := by
      intro row hrow
      obtain rfl := List.mem_singleton.mp hrow
      exact ⟨roundAt_nonneg hbalance, periodInterest_nonneg hrate hbalance⟩
    exact ⟨fun _ => hbalance, fun _ => hdues⟩
  | cons due' rest ih =>
    obtain ⟨later, hlater, rfl⟩ := annuityRows_next h
    have hinterest := periodInterest_nonneg hrate hbalance
    have hpay : annuity - periodInterest rate balance ∈ grid 4 :=
      sub_mem hannuity (periodInterest_mem_grid _ _)
    have hexact : roundAt 4 (decimal (annuity - periodInterest rate balance)) =
        annuity - periodInterest rate balance := by
      rw [decimal_of_mem hpay, roundAt_of_mem hpay]
      rw [abs_of_nonneg (by linarith)]
      linarith
    rw [hexact] at hlater ⊢
    have hnextGrid : balance - (annuity - periodInterest rate balance) ∈ grid 4 := sub_mem hgrid hpay
    show _ ↔ 0 ≤ debtAfter rate annuity rest.length
      (balance - (annuity - periodInterest rate balance))
    rcases le_or_gt 0 (balance - (annuity - periodInterest rate balance)) with hnext | hnext
    · have hkept : decimal (balance - (annuity - periodInterest rate balance)) =
          balance - (annuity - periodInterest rate balance) := by
        apply decimal_of_mem hnextGrid
        rw [abs_of_nonneg hnext]
        norm_num at hle ⊢
        linarith
      rw [hkept] at hlater
      have hmono : periodInterest rate (balance - (annuity - periodInterest rate balance)) ≤
          periodInterest rate balance := periodInterest_mono hrate (by linarith)
      rw [← ih due' (i + 1) hnextGrid hnext (by linarith) (hmono.trans hcover) hlater]
      constructor
      · intro hdues row hrow
        exact hdues row (List.mem_cons_of_mem _ hrow)
      · intro hdues row hrow
        rcases List.mem_cons.mp hrow with rfl | hrow
        · exact ⟨by show 0 ≤ annuity - _; linarith, hinterest⟩
        · exact hdues row hrow
    · -- the debt is overpaid: both sides fail
      have hpos : 0 ≤ annuity := hinterest.trans hcover
      have hneg := debtAfter_neg hrate hpos rest.length hnext
      obtain ⟨row, hrow, hdue⟩ := annuityRows_neg hrate hpos due' rest (i + 1)
        (decimal_mem_grid hnextGrid) (inContext_lt_zero (by norm_num) hnext) hlater
      constructor
      · intro hdues
        have := (hdues row (List.mem_cons_of_mem _ hrow)).1
        linarith
      · intro hdebt
        linarith

end

/-! ## Growth -/

/-- What so many payments of one grow to. -/
def growthSum (rate : ℚ) (k : ℕ) : ℚ := ∑ i ∈ Finset.range k, (1 + rate) ^ i

theorem growthSum_succ (rate : ℚ) (k : ℕ) :
    growthSum rate (k + 1) = growthSum rate k + (1 + rate) ^ k := Finset.sum_range_succ _ k

theorem mul_growthSum (rate : ℚ) (k : ℕ) : rate * growthSum rate k = (1 + rate) ^ k - 1 := by
  have h := mul_geom_sum (1 + rate) k
  rwa [add_sub_cancel_left] at h

theorem growthSum_nonneg {rate : ℚ} (hrate : 0 ≤ rate) (k : ℕ) : 0 ≤ growthSum rate k :=
  Finset.sum_nonneg fun i _ => by positivity

/-- A payment of one in every period grows to at least their number. -/
theorem le_growthSum {rate : ℚ} (hrate : 0 ≤ rate) (k : ℕ) : (k : ℚ) ≤ growthSum rate k := by
  induction k with
  | zero => simp [growthSum]
  | succ k ih =>
    have hone : 1 ≤ (1 + rate) ^ k := one_le_pow₀ (by linarith)
    rw [growthSum_succ]
    push_cast
    linarith

section

variable {rate annuity balance principal : ℚ} {n : ℤ}

theorem le_periodInterest (hrate : 0 ≤ rate) (hbalance : 0 ≤ balance)
    (hle : balance * rate ≤ 10 ^ 22) :
    balance * rate - 55 / 10 ^ 6 ≤ periodInterest rate balance := by
  have hq : 0 ≤ balance * rate := mul_nonneg hbalance hrate
  unfold periodInterest
  generalize balance * rate = q at hle hq
  have hdecimal := abs_decimal_sub_le q
  rw [abs_of_nonneg hq] at hdecimal
  have hlow := (abs_le.mp hdecimal).1
  have hround := (abs_le.mp (abs_roundAt_sub_le 4 (decimal q))).1
  norm_num at hle hlow hround ⊢
  linarith

/-- A debt that outgrows the payments, and the roundings, is not overpaid. -/
theorem debtAfter_nonneg (hrate : 0 ≤ rate) (k : ℕ) (hbalance : 0 ≤ balance)
    (hle : balance * rate ≤ 10 ^ 22) (hcover : periodInterest rate balance ≤ annuity)
    (hgrows : (annuity + 55 / 10 ^ 6) * growthSum rate k ≤ (1 + rate) ^ k * balance) :
    0 ≤ debtAfter rate annuity k balance := by
  have hannuity : 0 ≤ annuity := (periodInterest_nonneg hrate hbalance).trans hcover
  induction k generalizing balance with
  | zero => exact hbalance
  | succ k ih =>
    have hinterest := le_periodInterest hrate hbalance hle
    have hgrow : 0 < (1 + rate) ^ k := by positivity
    have hpayments : 0 ≤ (annuity + 55 / 10 ^ 6) * growthSum rate k :=
      mul_nonneg (by linarith) (growthSum_nonneg hrate k)
    -- what is left after one payment outgrows the other payments
    have hrest : (annuity + 55 / 10 ^ 6) * growthSum rate k ≤
        (1 + rate) ^ k * (balance - (annuity - periodInterest rate balance)) := by
      have hstep : (1 + rate) ^ k * ((1 + rate) * balance - (annuity + 55 / 10 ^ 6)) ≤
          (1 + rate) ^ k * (balance - (annuity - periodInterest rate balance)) :=
        mul_le_mul_of_nonneg_left (by linarith) hgrow.le
      rw [growthSum_succ, pow_succ (1 + rate) k] at hgrows
      linarith
    have hnext : 0 ≤ balance - (annuity - periodInterest rate balance) :=
      nonneg_of_mul_nonneg_right (hpayments.trans hrest) hgrow
    have hless : balance - (annuity - periodInterest rate balance) ≤ balance := by linarith
    apply ih hnext
    · exact (mul_le_mul_of_nonneg_right hless hrate).trans hle
    · exact (periodInterest_mono hrate hless).trans hcover
    · exact hrest

/-- The discount is at most a little more than the exact one. -/
theorem discountOf_mul_pow_le (hrate : 0 ≤ rate) {k : ℕ} (hk : (k : ℚ) ≤ 10 ^ 8) :
    discountOf rate k * (1 + rate) ^ k ≤ 1 + 1 / 10 ^ 18 := by
  have hbase := (decimal_bounds (by linarith : 0 ≤ 1 + rate)).1
  have hbasePos : 0 < decimal (1 + rate) := decimal_pos (by linarith)
  unfold discountOf
  rw [zpow_natCast]
  have hpow : (1 - 5 / 10 ^ 28) ^ k * (1 + rate) ^ k ≤ decimal (1 + rate) ^ k := by
    rw [← mul_pow]
    exact pow_le_pow_left₀ (mul_nonneg (by norm_num) (by linarith)) hbase k
  have hbernoulli : 1 + (k : ℚ) * (-(5 / 10 ^ 28)) ≤ (1 + -(5 / 10 ^ 28)) ^ k :=
    one_add_mul_le_pow (by norm_num) k
  rw [← sub_eq_add_neg] at hbernoulli
  have hgrow : 0 < (1 + rate) ^ k := by positivity
  have hpowPos : 0 < decimal (1 + rate) ^ k := pow_pos hbasePos k
  generalize decimal (1 + rate) ^ k = base at hpow hpowPos
  obtain ⟨hpower, -⟩ := decimal_bounds hpowPos.le
  have hpowerPos := decimal_pos hpowPos
  generalize decimal base = power at hpower hpowerPos
  obtain ⟨-, hdiscount⟩ := decimal_bounds (one_div_pos.mpr hpowerPos).le
  have hdiscountPos := decimal_pos (one_div_pos.mpr hpowerPos)
  -- the power is at least the exact one, less a part in `10 ^ 19`
  have hlow : (1 - 1 / 10 ^ 19) * (1 + rate) ^ k ≤ power := by
    have hfactor : 1 - 1 / 10 ^ 19 ≤ (1 - 5 / 10 ^ 28) * (1 - 5 / 10 ^ 28 : ℚ) ^ k := by
      generalize (1 - 5 / 10 ^ 28 : ℚ) ^ k = factor at hbernoulli
      generalize (k : ℚ) = m at hk hbernoulli
      norm_num at hbernoulli hk ⊢
      linarith
    calc (1 - 1 / 10 ^ 19) * (1 + rate) ^ k
        ≤ (1 - 5 / 10 ^ 28) * (1 - 5 / 10 ^ 28) ^ k * (1 + rate) ^ k :=
          mul_le_mul_of_nonneg_right hfactor hgrow.le
      _ = (1 - 5 / 10 ^ 28) * ((1 - 5 / 10 ^ 28) ^ k * (1 + rate) ^ k) := by ring
      _ ≤ (1 - 5 / 10 ^ 28) * base := mul_le_mul_of_nonneg_left hpow (by norm_num)
      _ ≤ power := hpower
  generalize decimal (1 / power) = discount at hdiscount hdiscountPos
  have hone : discount * power ≤ 1 + 5 / 10 ^ 28 := by
    calc discount * power ≤ (1 + 5 / 10 ^ 28) * (1 / power) * power :=
          mul_le_mul_of_nonneg_right hdiscount hpowerPos.le
      _ = 1 + 5 / 10 ^ 28 := by field_simp
  have hscaled : discount * ((1 - 1 / 10 ^ 19) * (1 + rate) ^ k) ≤ discount * power :=
    mul_le_mul_of_nonneg_left hlow hdiscountPos.le
  have hshort : (1 - 1 / 10 ^ 19) * (discount * (1 + rate) ^ k) ≤ 1 + 5 / 10 ^ 28 := by linarith
  generalize discount * (1 + rate) ^ k = x at hshort
  norm_num at hshort ⊢
  linarith

/-- The annuity is at most a little more than the exact one, which grows to what the principal grows
to. -/
theorem annuityOf_mul_growthSum_le (hprincipal : 0 ≤ principal) (hrate : 1 / 10 ^ 8 ≤ rate) {k : ℕ}
    (hk1 : 1 ≤ k) (hk : (k : ℚ) ≤ 10 ^ 8) :
    annuityOf principal rate k * growthSum rate k ≤
      (1 + 1 / 10 ^ 9) * (principal * (1 + rate) ^ k) + growthSum rate k / (2 * 10 ^ 4) := by
  have hpos : 0 < rate := lt_of_lt_of_le (by norm_num) hrate
  obtain ⟨hdiscountPos, hdiscount⟩ := discountOf_bounds (hrate.trans' (by norm_num))
    (by exact_mod_cast hk1 : (1 : ℤ) ≤ k)
  have hdiscountMul := discountOf_mul_pow_le hpos.le hk
  have hgrowth := mul_growthSum rate k
  have hsum : 1 ≤ growthSum rate k := by
    have hcount := le_growthSum hpos.le k
    have hk1' : (1 : ℚ) ≤ k := by exact_mod_cast hk1
    linarith
  unfold annuityOf
  generalize discountOf rate k = discount at hdiscountPos hdiscount hdiscountMul ⊢
  have hgrow : 0 < (1 + rate) ^ k := by positivity
  generalize (1 + rate) ^ k = grown at hdiscountMul hgrowth hgrow ⊢
  generalize growthSum rate k = total at hgrowth hsum ⊢
  have hrest : 0 < 1 - discount := by
    norm_num at hdiscount ⊢
    linarith
  obtain ⟨hden, -⟩ := decimal_bounds hrest.le
  have hdenPos := decimal_pos hrest
  generalize decimal (1 - discount) = den at hden hdenPos ⊢
  obtain ⟨-, hnum⟩ := decimal_bounds (mul_nonneg hprincipal hpos.le)
  have hnumNonneg := decimal_nonneg (mul_nonneg hprincipal hpos.le)
  generalize decimal (principal * rate) = num at hnum hnumNonneg ⊢
  obtain ⟨-, hquot⟩ := decimal_bounds (div_nonneg hnumNonneg hdenPos.le)
  have hquotNonneg := decimal_nonneg (div_nonneg hnumNonneg hdenPos.le)
  generalize decimal (num / den) = quot at hquot hquotNonneg ⊢
  have hround := (abs_le.mp (abs_roundAt_sub_le 4 quot)).2
  -- `1 - discount` is close enough to the exact one because the rate is not too small
  have hexact : (1 - 1 / 10 ^ 10) * (rate * total) ≤ (1 - discount) * grown := by
    have hleast : 1 / 10 ^ 8 ≤ rate * total := hrate.trans (le_mul_of_one_le_right hpos.le hsum)
    rw [show (1 - discount) * grown = grown - discount * grown by ring]
    generalize discount * grown = back at hdiscountMul ⊢
    rw [hgrowth] at hleast ⊢
    norm_num at hleast hdiscountMul ⊢
    linarith
  have hdenGrown : (1 - 5 / 10 ^ 28) * ((1 - 1 / 10 ^ 10) * (rate * total)) ≤ den * grown := by
    calc (1 - 5 / 10 ^ 28) * ((1 - 1 / 10 ^ 10) * (rate * total))
        ≤ (1 - 5 / 10 ^ 28) * ((1 - discount) * grown) :=
          mul_le_mul_of_nonneg_left hexact (by norm_num)
      _ = (1 - 5 / 10 ^ 28) * (1 - discount) * grown := by ring
      _ ≤ den * grown := mul_le_mul_of_nonneg_right hden hgrow.le
  have hpaid : quot * den ≤ (1 + 5 / 10 ^ 28) ^ 2 * (principal * rate) := by
    calc quot * den ≤ (1 + 5 / 10 ^ 28) * (num / den) * den :=
          mul_le_mul_of_nonneg_right hquot hdenPos.le
      _ = (1 + 5 / 10 ^ 28) * num := by field_simp
      _ ≤ (1 + 5 / 10 ^ 28) * ((1 + 5 / 10 ^ 28) * (principal * rate)) :=
          mul_le_mul_of_nonneg_left hnum (by norm_num)
      _ = (1 + 5 / 10 ^ 28) ^ 2 * (principal * rate) := by ring
  have hscaled : (1 - 5 / 10 ^ 28) * (1 - 1 / 10 ^ 10) * (quot * total) ≤
      (1 + 5 / 10 ^ 28) ^ 2 * (principal * grown) := by
    apply le_of_mul_le_mul_left _ hpos
    calc rate * ((1 - 5 / 10 ^ 28) * (1 - 1 / 10 ^ 10) * (quot * total))
        = quot * ((1 - 5 / 10 ^ 28) * ((1 - 1 / 10 ^ 10) * (rate * total))) := by ring
      _ ≤ quot * (den * grown) := mul_le_mul_of_nonneg_left hdenGrown hquotNonneg
      _ = quot * den * grown := by ring
      _ ≤ (1 + 5 / 10 ^ 28) ^ 2 * (principal * rate) * grown :=
          mul_le_mul_of_nonneg_right hpaid hgrow.le
      _ = rate * ((1 + 5 / 10 ^ 28) ^ 2 * (principal * grown)) := by ring
  have hupper : quot * total ≤ (1 + 1 / 10 ^ 9) * (principal * grown) := by
    have hgrown : 0 ≤ principal * grown := mul_nonneg hprincipal hgrow.le
    have hpaidNonneg : 0 ≤ quot * total := mul_nonneg hquotNonneg (by linarith)
    generalize quot * total = x at hscaled hpaidNonneg
    generalize principal * grown = y at hscaled hgrown
    norm_num at hscaled ⊢
    linarith
  calc roundAt 4 quot * total ≤ (quot + 1 / (2 * 10 ^ 4)) * total :=
        mul_le_mul_of_nonneg_right (by linarith) (by linarith)
    _ = quot * total + total / (2 * 10 ^ 4) := by ring
    _ ≤ _ := by linarith

/-- The annuity covers the interest of the first period. -/
theorem periodInterest_le_annuityOf (hprincipal : 0 ≤ principal) (hrate : 0 ≤ rate) (hn : 0 ≤ n)
    (hden : decimal (1 - discountOf rate n) ≠ 0) :
    periodInterest rate principal ≤ annuityOf principal rate n := by
  have hkept : decimal 1 = 1 := decimal_of_mem (mem_grid.mpr ⟨10 ^ 4, by norm_num⟩) (by norm_num)
  have hbase : 1 ≤ decimal (1 + rate) := by
    calc 1 = decimal 1 := hkept.symm
      _ ≤ decimal (1 + rate) := decimal_mono (by linarith)
  have hpower : 1 ≤ decimal (decimal (1 + rate) ^ n) := by
    calc 1 = decimal 1 := hkept.symm
      _ ≤ decimal (decimal (1 + rate) ^ n) := decimal_mono (one_le_zpow₀ hbase hn)
  have hdiscountPos : 0 < discountOf rate n := decimal_pos (one_div_pos.mpr (by linarith))
  have hdiscount : discountOf rate n ≤ 1 := by
    calc discountOf rate n ≤ decimal 1 :=
          decimal_mono ((div_le_one (by linarith)).mpr hpower)
      _ = 1 := hkept
  have hdenLe : decimal (1 - discountOf rate n) ≤ 1 := by
    calc decimal (1 - discountOf rate n) ≤ decimal 1 := decimal_mono (by linarith)
      _ = 1 := hkept
  have hdenPos : 0 < decimal (1 - discountOf rate n) :=
    lt_of_le_of_ne (decimal_nonneg (by linarith)) hden.symm
  have hnum : 0 ≤ decimal (principal * rate) := decimal_nonneg (mul_nonneg hprincipal hrate)
  apply roundAt_mono
  calc decimal (principal * rate) = decimal (decimal (principal * rate)) :=
        (inContext_inContext (by norm_num) (mul_nonneg hprincipal hrate)).symm
    _ ≤ decimal (decimal (principal * rate) / decimal (1 - discountOf rate n)) := by
        apply decimal_mono
        rw [le_div_iff₀ hdenPos]
        exact mul_le_of_le_one_right hnum hdenLe

end

/-- The debt outgrows the payments, with room for all the roundings. -/
structure OutgrowsPayments (principal rate : ℚ) (n : ℕ) : Prop where
  rate_ge : 1 / 10 ^ 8 ≤ rate
  amount_le : principal * (1 + rate) ≤ 10 ^ 22
  sum_le : growthSum rate n ≤ 10 ^ 8
  grows : 2 * growthSum rate n ^ 2 ≤ 10 ^ 4 * (principal * (1 + rate) ^ n)

namespace OutgrowsPayments

variable {principal rate : ℚ} {n : ℕ}

theorem rate_pos (h : OutgrowsPayments principal rate n) : 0 < rate :=
  lt_of_lt_of_le (by norm_num) h.rate_ge

theorem count_le (h : OutgrowsPayments principal rate n) : (n : ℚ) ≤ 10 ^ 8 :=
  (le_growthSum h.rate_pos.le n).trans h.sum_le

theorem interest_le (h : OutgrowsPayments principal rate n) (hprincipal : 0 ≤ principal) :
    principal * rate ≤ 10 ^ 22 := by
  have := h.amount_le
  linarith

theorem cover (h : OutgrowsPayments principal rate n) (hprincipal : 0 ≤ principal) (hn : 1 ≤ n) :
    periodInterest rate principal ≤ annuityOf principal rate n := by
  obtain ⟨-, hdiscount⟩ := discountOf_bounds (h.rate_ge.trans' (by norm_num))
    (by exact_mod_cast hn : (1 : ℤ) ≤ n)
  apply periodInterest_le_annuityOf hprincipal h.rate_pos.le (by omega)
  apply (decimal_pos _).ne'
  norm_num at hdiscount ⊢
  linarith

/-- The payments before the last one do not exceed the debt. -/
theorem debt_nonneg (h : OutgrowsPayments principal rate (n + 1)) (hprincipal : 0 ≤ principal) :
    0 ≤ debtAfter rate (annuityOf principal rate (n + 1 : ℕ)) n principal := by
  have hrate := h.rate_pos
  apply debtAfter_nonneg hrate.le n hprincipal (h.interest_le hprincipal) (h.cover hprincipal (by omega))
  have hannuity := annuityOf_mul_growthSum_le hprincipal h.rate_ge (by omega) h.count_le
  have hsum := growthSum_succ rate n
  have hmul := mul_growthSum rate n
  have hone : 1 ≤ growthSum rate (n + 1) := by
    have hcount := le_growthSum hrate.le (n + 1)
    push_cast at hcount
    linarith [(Nat.cast_nonneg n : (0 : ℚ) ≤ n)]
  have hle := h.sum_le
  have hgrows := h.grows
  have hgrown : 0 ≤ principal * (1 + rate) ^ (n + 1) := by positivity
  -- the payments up to the last one, grown for one more period
  have hshift : (1 + rate) * growthSum rate n = growthSum rate (n + 1) - 1 := by linarith
  apply le_of_mul_le_mul_left _ (by linarith : 0 < 1 + rate)
  rw [show (1 + rate) * ((1 + rate) ^ n * principal) = principal * (1 + rate) ^ (n + 1) by ring,
    mul_left_comm, hshift]
  generalize growthSum rate (n + 1) = total at hannuity hone hle hgrows
  generalize principal * (1 + rate) ^ (n + 1) = grown at hannuity hgrows hgrown
  generalize annuityOf principal rate (n + 1 : ℕ) = annuity at hannuity
  apply le_of_mul_le_mul_right _ (by linarith : 0 < total)
  have hpaid : (annuity + 55 / 10 ^ 6) * total ≤ (1 + 1 / 10 ^ 9) * grown + 105 / 10 ^ 6 * total := by
    norm_num at hannuity ⊢
    linarith
  have hspread : grown * total ≤ grown * 10 ^ 8 := mul_le_mul_of_nonneg_left hle hgrown
  calc (annuity + 55 / 10 ^ 6) * (total - 1) * total
      = (annuity + 55 / 10 ^ 6) * total * (total - 1) := by ring
    _ ≤ ((1 + 1 / 10 ^ 9) * grown + 105 / 10 ^ 6 * total) * (total - 1) :=
        mul_le_mul_of_nonneg_right hpaid (by linarith)
    _ ≤ grown * total := by
        have hexpand : ((1 + 1 / 10 ^ 9) * grown + 105 / 10 ^ 6 * total) * (total - 1) =
            grown * total + 1 / 10 ^ 9 * (grown * total) - (1 + 1 / 10 ^ 9) * grown +
              105 / 10 ^ 6 * total ^ 2 - 105 / 10 ^ 6 * total := by ring
        rw [hexpand]
        norm_num at hspread hgrows ⊢
        linarith

end OutgrowsPayments

/-! ## Schedules -/

/-- Equal parts leave something for the last period; the debt on an annuity outgrows the payments. -/
def DuesFit (principal rate : ℚ) (perYear : ℕ) (n : ℤ) : InterestMethod → Prop
  | .flat => SplitFits (unitsOf principal) n ∧
    SplitFits (unitsOf (flatInterest principal rate n perYear)) n
  | .reducingBalance => rate = 0 ∧ SplitFits (unitsOf principal) n ∨
    OutgrowsPayments principal (periodRate rate perYear) n.toNat

section

variable {principal rate : ℚ} {method : InterestMethod} {frequency : RepaymentFrequency}
  {perYear : ℕ} {n : ℤ} {d : Date} {rows : List ScheduledInstallment}

theorem OutgrowsPayments.rate_ne {k : ℕ} (h : OutgrowsPayments principal (periodRate rate perYear) k)
    (hper : periodsPerYear frequency = .ok perYear) (hrate : 0 ≤ rate) : rate ≠ 0 := by
  intro hzero
  have hrate0 := (periodRate_eq_zero hrate (periodsPerYear_pos hper).1).mpr hzero
  exact h.rate_pos.ne' hrate0

theorem residue_nonneg_iff_of_mem {amount : ℚ} (hgrid : amount ∈ grid 4) (hamount : 0 ≤ amount)
    (hle : amount ≤ 6 * 10 ^ 22) (hn : 1 ≤ n) : 0 ≤ residue amount n ↔ SplitFits (unitsOf amount) n := by
  obtain ⟨units, rfl⟩ := mem_grid.mp hgrid
  have hunits : (0 : ℚ) ≤ units := by
    rw [le_div_iff₀ (by norm_num), zero_mul] at hamount
    exact hamount
  have hlt : (units : ℚ) < 10 ^ 27 := by
    rw [div_le_iff₀ (by norm_num)] at hle
    norm_num at hle ⊢
    linarith
  rw [unitsOf_div]
  exact residue_nonneg_iff (by exact_mod_cast hunits) (by exact_mod_cast hlt) hn

/-- What a flat schedule goes through when it returns. -/
theorem flatSchedule_eq_ok (h : flatSchedule principal rate frequency n d = .ok rows) :
    ∃ dates interest interestResidual, dueDates frequency n.toNat d = .ok dates ∧
      rows = splitRows (equalPart principal n)
        (decimal (principal - decimal (equalPart principal n * (n - 1 : ℤ)))) interest
        interestResidual 0 dates := by
  obtain ⟨perYear, -, h⟩ := except_bind_eq_ok.mp h
  obtain ⟨years, -, h⟩ := except_bind_eq_ok.mp h
  obtain ⟨total, -, h⟩ := except_bind_eq_ok.mp h
  obtain ⟨share, -, h⟩ := except_bind_eq_ok.mp h
  obtain ⟨interest, -, h⟩ := except_bind_eq_ok.mp h
  obtain ⟨part, hpart, h⟩ := except_bind_eq_ok.mp h
  obtain ⟨perPeriod, hperPeriod, h⟩ := except_bind_eq_ok.mp h
  obtain ⟨dates, hdates, h⟩ := except_bind_eq_ok.mp h
  obtain ⟨-, rfl⟩ := decimalDiv_eq_ok hpart
  obtain ⟨-, rfl⟩ := quantized_eq_ok.mp hperPeriod
  exact ⟨dates, interest, _, hdates, (Except.ok.inj h).symm⟩

theorem flatSchedule_nonneg_iff (hgrid : principal ∈ grid 4) (hprincipal : 0 ≤ principal)
    (hle : principal ≤ 10 ^ 22) (hrate : 0 ≤ rate) (hper : periodsPerYear frequency = .ok perYear)
    (hn : 1 ≤ n) (hexact : exactInterest principal rate n perYear ≤ 10 ^ 22)
    (h : flatSchedule principal rate frequency n d = .ok rows) :
    NonnegativeDues rows ↔ DuesFit principal rate perYear n .flat := by
  obtain ⟨dates, -, -, hdates, -⟩ := flatSchedule_eq_ok h
  obtain ⟨hpos, -⟩ := periodsPerYear_pos hper
  obtain ⟨hT, hTle, -⟩ := flatInterest_bounds hprincipal hrate hn hpos hexact
  have hTgrid : flatInterest principal rate n perYear ∈ grid 4 := roundAt_mem_grid 4 _
  rw [flatSchedule_eq hgrid hprincipal hle hrate hper hn hdates hexact] at h
  obtain rfl := Except.ok.inj h
  have hlength := dueDates_length hdates
  cases dates with
  | nil =>
    rw [List.length_nil] at hlength
    omega
  | cons due rest =>
    rw [splitRows_nonneg_iff (equalPart_nonneg hprincipal hn) (equalPart_nonneg hT hn),
      residue_nonneg_iff_of_mem hgrid hprincipal (hle.trans (by norm_num)) hn,
      residue_nonneg_iff_of_mem hTgrid hT hTle hn]
    rfl

/-- What a reducing schedule goes through when it returns. -/
theorem reducingSchedule_eq_ok (hper : periodsPerYear frequency = .ok perYear)
    (h : reducingSchedule principal rate frequency n d = .ok rows) :
    ∃ dates, dueDates frequency n.toNat d = .ok dates ∧
      (periodRate rate perYear = 0 → rows = splitRows (equalPart principal n)
        (decimal (principal - decimal (equalPart principal n * (n - 1 : ℤ)))) 0 0 0 dates) ∧
      (periodRate rate perYear ≠ 0 →
        decimal (1 - discountOf (periodRate rate perYear) n) ≠ 0 ∧
        |annuityOf principal (periodRate rate perYear) n| < 10 ^ 24 ∧
        annuityRows (periodRate rate perYear) (annuityOf principal (periodRate rate perYear) n) 0
          principal dates = .ok rows) := by
  unfold reducingSchedule at h
  rw [hper] at h
  obtain ⟨perYear', hok, h⟩ := except_bind_eq_ok.mp h
  obtain rfl := Except.ok.inj hok
  obtain ⟨periodRate', hrate, h⟩ := except_bind_eq_ok.mp h
  obtain ⟨-, rfl⟩ := decimalDiv_eq_ok hrate
  split at h
  · next hzero =>
    obtain ⟨part, hpart, h⟩ := except_bind_eq_ok.mp h
    obtain ⟨perPeriod, hperPeriod, h⟩ := except_bind_eq_ok.mp h
    obtain ⟨dates, hdates, h⟩ := except_bind_eq_ok.mp h
    obtain ⟨-, rfl⟩ := decimalDiv_eq_ok hpart
    obtain ⟨-, rfl⟩ := quantized_eq_ok.mp hperPeriod
    exact ⟨dates, hdates, fun _ => (Except.ok.inj h).symm, fun hne => absurd hzero hne⟩
  · next hne =>
    obtain ⟨power, hpower, h⟩ := except_bind_eq_ok.mp h
    obtain rfl := decimalPow_eq_ok hpower
    obtain ⟨discount, hdiscount, h⟩ := except_bind_eq_ok.mp h
    obtain ⟨-, rfl⟩ := decimalDiv_eq_ok hdiscount
    obtain ⟨quotient, hquotient, h⟩ := except_bind_eq_ok.mp h
    obtain ⟨hden, rfl⟩ := decimalDiv_eq_ok hquotient
    obtain ⟨annuity, hannuity, h⟩ := except_bind_eq_ok.mp h
    obtain ⟨hfits, rfl⟩ := quantized_eq_ok.mp hannuity
    obtain ⟨dates, hdates, h⟩ := except_bind_eq_ok.mp h
    exact ⟨dates, hdates, fun hzero => absurd hzero hne, fun _ => ⟨hden, hfits, h⟩⟩

/-- For an annuity the exact condition is a recurrence, as every period rounds its interest. -/
theorem reducingSchedule_nonneg_iff (hgrid : principal ∈ grid 4) (hprincipal : 0 ≤ principal)
    (hle : principal ≤ 10 ^ 22) (hrate : 0 ≤ rate) (hper : periodsPerYear frequency = .ok perYear)
    (hn : 1 ≤ n) (h : reducingSchedule principal rate frequency n d = .ok rows) :
    NonnegativeDues rows ↔ (rate = 0 → SplitFits (unitsOf principal) n) ∧
      (rate ≠ 0 → 0 ≤ debtAfter (periodRate rate perYear)
        (annuityOf principal (periodRate rate perYear) n) (n.toNat - 1) principal) := by
  obtain ⟨dates, hdates, -, hannuity⟩ := reducingSchedule_eq_ok hper h
  obtain ⟨hpos, -⟩ := periodsPerYear_pos hper
  have hlength := dueDates_length hdates
  cases dates with
  | nil =>
    rw [List.length_nil] at hlength
    omega
  | cons due rest =>
    by_cases hzero : rate = 0
    · subst hzero
      rw [reducingSchedule_zero hgrid hprincipal hle hper hn hdates] at h
      obtain rfl := Except.ok.inj h
      rw [splitRows_nonneg_iff (equalPart_nonneg hprincipal hn) le_rfl,
        residue_nonneg_iff_of_mem hgrid hprincipal (hle.trans (by norm_num)) hn]
      simp
    · have hne : periodRate rate perYear ≠ 0 := fun h0 => hzero ((periodRate_eq_zero hrate hpos).mp h0)
      obtain ⟨hden, hfits, hrows⟩ := hannuity hne
      have hper0 : 0 ≤ periodRate rate perYear :=
        decimal_nonneg (div_nonneg (decimal_nonneg (by positivity)) (Nat.cast_nonneg _))
      have hcover := periodInterest_le_annuityOf hprincipal hper0 (by omega) hden
      have hgridA : annuityOf principal (periodRate rate perYear) n ∈ grid 4 := roundAt_mem_grid 4 _
      have hiff := annuityRows_nonneg_iff hper0 hgridA (lt_of_abs_lt hfits) due rest 0 hgrid hprincipal
        hle hcover hrows
      have hcount : rest.length = n.toNat - 1 := by
        rw [List.length_cons] at hlength
        omega
      rw [hiff, hcount]
      simp [hzero]

/-- The table accepts a schedule whose rounded parts leave something for the last period, and of those
in equal parts no other. For an annuity it is enough that the debt outgrows the payments. -/
theorem schedule_nonnegative_iff (hgrid : principal ∈ grid 4) (hprincipal : 0 < principal)
    (hle : principal ≤ 10 ^ 22) (hrate : 0 ≤ rate) (hper : periodsPerYear frequency = .ok perYear)
    (hn : 1 ≤ n) (hexact : method = .flat → exactInterest principal rate n perYear ≤ 10 ^ 22)
    (h : computeSchedule principal rate method frequency n d = .ok rows) :
    (DuesFit principal rate perYear n method → NonnegativeDues rows) ∧
      (method = .flat ∨ rate = 0 → NonnegativeDues rows → DuesFit principal rate perYear n method) := by
  cases method with
  | flat =>
    have hiff := flatSchedule_nonneg_iff hgrid hprincipal.le hle hrate hper hn (hexact rfl) h
    exact ⟨hiff.mpr, fun _ => hiff.mp⟩
  | reducingBalance =>
    have hiff := reducingSchedule_nonneg_iff hgrid hprincipal.le hle hrate hper hn h
    constructor
    · rintro (⟨hzero, hfits⟩ | hgrows)
      · exact hiff.mpr ⟨fun _ => hfits, fun hne => absurd hzero hne⟩
      · obtain ⟨k, rfl⟩ : ∃ k : ℕ, n = (k + 1 : ℕ) := ⟨n.toNat - 1, by omega⟩
        exact hiff.mpr ⟨fun hzero => absurd hzero (hgrows.rate_ne hper hrate),
          fun _ => hgrows.debt_nonneg hprincipal.le⟩
    · rintro (hflat | hzero) hdues
      · cases hflat
      · exact .inl ⟨hzero, (hiff.mp hdues).1 hzero⟩

end

theorem schedule_nonnegative_iff_fortnight :
    ∃ rows, computeSchedule 1000 12 .flat .weekly 2 ⟨738886, by decide⟩ = .ok rows ∧
      NonnegativeDues rows := by
  obtain ⟨rows, hrows⟩ : ∃ rows,
      computeSchedule 1000 12 .flat .weekly 2 ⟨738886, by decide⟩ = .ok rows := by
    refine ⟨[⟨1, ⟨738893, by decide⟩, 500, 23077 / 10000, 5023077 / 10000⟩,
      ⟨2, ⟨738900, by decide⟩, 500, 23077 / 10000, 5023077 / 10000⟩], ?_⟩
    decide +kernel
  refine ⟨rows, hrows, ?_⟩
  refine (schedule_nonnegative_iff (mem_grid.mpr ⟨10000000, by norm_num⟩) (by norm_num) (by norm_num)
    (by norm_num) rfl (by norm_num) (fun _ => by norm_num [exactInterest]) hrows).1 ?_
  show SplitFits _ _ ∧ SplitFits _ _
  decide +kernel

/-- Five units over nine periods: eight of them pay one, and three are missing. -/
theorem schedule_not_nonnegative :
    ((computeSchedule (5 / 10000) 12 .flat .monthly 9 ⟨738886, by decide⟩).map
        fun rows => rows.map (·.principalDue)) =
      .ok (List.replicate 8 (1 / 10000) ++ [-3 / 10000]) ∧
    ((computeSchedule (5 / 10000) 12 .reducingBalance .monthly 9 ⟨738886, by decide⟩).map
        fun rows => rows.map (·.principalDue)) =
      .ok (List.replicate 8 (1 / 10000) ++ [-3 / 10000]) := by
  decide +kernel

end SaccoPlatform
