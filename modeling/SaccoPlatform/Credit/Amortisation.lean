import SaccoPlatform.Credit.Schedule

/-!
# What a schedule adds up to

`compute_schedule` rounds every instalment and leaves the residue to the last one. Where the amounts
stay within the digits of the decimal context its additions are exact, so the instalments add up to
the principal, and the balance that interest is computed on is the principal that is still to be
paid. The products are rounded twice, to 28 digits and to four decimals: within a hair of a tie
between two amounts the result is not the exact product rounded once.
-/

namespace SaccoPlatform

open Lib

/-! ## Decimal operations -/

theorem abs_decimal_sub_le (q : ℚ) : |decimal q - q| ≤ |q| * (5 / 10 ^ 28) :=
  abs_inContext_sub_le 28 q

theorem abs_decimal_le (q : ℚ) : |decimal q| ≤ 3 / 2 * |q| := by
  have hhalf : |decimal q - q| ≤ |q| / 2 := abs_inContext_sub_le_half (by norm_num) q
  have htri := abs_sub_abs_le_abs_sub (decimal q) q
  linarith

/-- A decimal operation is exact up to one part in `2 * 10 ^ 27`. -/
theorem decimal_bounds {q : ℚ} (hq : 0 ≤ q) :
    (1 - 5 / 10 ^ 28) * q ≤ decimal q ∧ decimal q ≤ (1 + 5 / 10 ^ 28) * q := by
  have h := abs_decimal_sub_le q
  rw [abs_of_nonneg hq, abs_le] at h
  constructor <;> linarith

theorem quantized_eq_ok {q r : ℚ} :
    quantized q = .ok r ↔ |roundAt 4 q| < 10 ^ 24 ∧ r = roundAt 4 q := by
  have hscale : |roundAt 4 q| * 10 ^ 4 < 10 ^ 28 ↔ |roundAt 4 q| < 10 ^ 24 := by
    constructor <;> intro h <;> norm_num at h ⊢ <;> linarith
  unfold quantized quantize?
  rw [← hscale]
  split
  · next q' hsome =>
    split at hsome
    · next hlt =>
      cases hsome
      exact ⟨fun h => ⟨hlt, (Except.ok.inj h).symm⟩, fun h => congrArg Except.ok h.2.symm⟩
    · cases hsome
  · next hnone =>
    split at hnone
    · cases hnone
    · next hlt => exact ⟨nofun, fun h => absurd h.1 hlt⟩

theorem quantized_of_le {q : ℚ} (h : |q| ≤ 10 ^ 23) : quantized q = .ok (roundAt 4 q) := by
  refine quantized_eq_ok.mpr ⟨?_, rfl⟩
  have hclose := abs_roundAt_sub_le 4 q
  have htri := abs_sub_abs_le_abs_sub (roundAt 4 q) q
  norm_num at hclose h ⊢
  linarith

theorem decimalDiv_of_ne {a b : ℚ} (hb : b ≠ 0) : decimalDiv a b = .ok (decimal (a / b)) := if_neg hb

/-! ## Equal parts -/

section

variable {p pr q qr : ℚ}

theorem splitRows_length (i : ℕ) (dates : List Date) :
    (splitRows p pr q qr i dates).length = dates.length := by
  induction dates generalizing i with
  | nil => rfl
  | cons due rest ih =>
    cases rest with
    | nil => rfl
    | cons due' rest => exact congrArg (· + 1) (ih (i + 1))

/-- Numbered from `i + 1` on. -/
def Numbered (i : ℕ) (rows : List ScheduledInstallment) : Prop :=
  ∀ (k : ℕ) (row : ScheduledInstallment), rows[k]? = some row → row.periodNumber = (i : ℤ) + k + 1

theorem numbered_cons {i : ℕ} {row : ScheduledInstallment} {rows : List ScheduledInstallment}
    (hrow : row.periodNumber = i + 1) (hrows : Numbered (i + 1) rows) : Numbered i (row :: rows) := by
  intro k other hother
  cases k with
  | zero =>
    obtain rfl : row = other := by simpa using hother
    rw [hrow]
    simp
  | succ k =>
    have hnumber := hrows k other (by simpa using hother)
    push_cast at hnumber ⊢
    omega

theorem splitRows_numbered (i : ℕ) (dates : List Date) :
    Numbered i (splitRows p pr q qr i dates) := by
  induction dates generalizing i with
  | nil =>
    intro k row hrow
    cases hrow
  | cons due rest ih =>
    cases rest with
    | nil =>
      apply numbered_cons rfl
      intro k row hrow
      cases hrow
    | cons due' rest => exact numbered_cons rfl (ih (i + 1))

/-- The equal parts and the residue. -/
theorem splitRows_sums (i : ℕ) (due : Date) (rest : List Date) :
    ((splitRows p pr q qr i (due :: rest)).map (·.principalDue)).sum = p * rest.length + pr ∧
      ((splitRows p pr q qr i (due :: rest)).map (·.interestDue)).sum = q * rest.length + qr := by
  induction rest generalizing i due with
  | nil => simp [splitRows]
  | cons due' rest ih =>
    obtain ⟨hprincipal, hinterest⟩ := ih (i + 1) due'
    simp only [splitRows, List.map_cons, List.sum_cons, List.length_cons, hprincipal, hinterest]
    push_cast
    constructor <;> ring

theorem splitRows_mem {i : ℕ} {dates : List Date} {row : ScheduledInstallment}
    (h : row ∈ splitRows p pr q qr i dates) :
    (row.principalDue = p ∧ row.interestDue = q ∨ row.principalDue = pr ∧ row.interestDue = qr) ∧
      row.totalDue = decimal (row.principalDue + row.interestDue) := by
  induction dates generalizing i with
  | nil => cases h
  | cons due rest ih =>
    cases rest with
    | nil =>
      obtain rfl := List.mem_singleton.mp h
      exact ⟨.inr ⟨rfl, rfl⟩, rfl⟩
    | cons due' rest =>
      rcases List.mem_cons.mp h with rfl | h
      · exact ⟨.inl ⟨rfl, rfl⟩, rfl⟩
      · exact ih h

/-- The residue stands on the last row. -/
theorem splitRows_last (i : ℕ) (due : Date) (rest : List Date) :
    ∃ row ∈ splitRows p pr q qr i (due :: rest), row.principalDue = pr ∧ row.interestDue = qr := by
  induction rest generalizing i due with
  | nil => exact ⟨_, List.mem_singleton_self _, rfl, rfl⟩
  | cons due' rest ih =>
    obtain ⟨row, hrow, hdues⟩ := ih (i + 1) due'
    exact ⟨row, List.mem_cons_of_mem _ hrow, hdues⟩

end

theorem dueDates_length {frequency : RepaymentFrequency} {n : ℕ} {d : Date} {dates : List Date}
    (h : dueDates frequency n d = .ok dates) : dates.length = n := by
  induction n generalizing d dates with
  | zero =>
    cases h
    rfl
  | succ n ih =>
    unfold dueDates at h
    cases hnext : nextDueDate d frequency with
    | error e =>
      rw [hnext] at h
      cases h
    | ok next =>
      cases hrest : dueDates frequency n next with
      | error e =>
        rw [hnext] at h
        simp only [bind, Except.bind, hrest] at h
        cases h
      | ok rest =>
        rw [hnext] at h
        simp only [bind, Except.bind, hrest] at h
        cases h
        rw [List.length_cons, ih hrest]

/-! ## Annuities -/

/-- The interest of one period on a balance. -/
def periodInterest (rate balance : ℚ) : ℚ := roundAt 4 (decimal (balance * rate))

/-- The balance after so many payments of the annuity. -/
def debtAfter (rate annuity : ℚ) : ℕ → ℚ → ℚ
  | 0, balance => balance
  | k + 1, balance => debtAfter rate annuity k (balance - (annuity - periodInterest rate balance))

/-- A schedule that pays the balance off: the instalments are numbered and add up, and each bears
interest on the principal that it and the later ones pay. -/
structure PaysOff (rate : ℚ) (i : ℕ) (balance : ℚ) (rows : List ScheduledInstallment) : Prop where
  numbered : Numbered i rows
  total : ∀ row ∈ rows, row.totalDue = row.principalDue + row.interestDue
  principal : (rows.map (·.principalDue)).sum = balance
  interest : ∀ (k : ℕ) (row : ScheduledInstallment), rows[k]? = some row →
    row.interestDue = periodInterest rate (((rows.drop k).map (·.principalDue)).sum)

theorem PaysOff.cons {rate balance : ℚ} {i : ℕ} {row : ScheduledInstallment}
    {rows : List ScheduledInstallment} (h : PaysOff rate (i + 1) (balance - row.principalDue) rows)
    (hnumber : row.periodNumber = i + 1) (htotal : row.totalDue = row.principalDue + row.interestDue)
    (hinterest : row.interestDue = periodInterest rate balance) :
    PaysOff rate i balance (row :: rows) := by
  have hsum : ((row :: rows).map (·.principalDue)).sum = balance := by
    rw [List.map_cons, List.sum_cons, h.principal]
    ring
  refine ⟨numbered_cons hnumber h.numbered, ?_, hsum, ?_⟩
  · intro other hother
    rcases List.mem_cons.mp hother with rfl | hother
    · exact htotal
    · exact h.total other hother
  · intro k other hother
    cases k with
    | zero =>
      obtain rfl : row = other := by simpa using hother
      rw [List.drop_zero, hsum, hinterest]
    | succ k => exact h.interest k other (by simpa using hother)

/-- The amounts of the recurrence stay within the digits of the decimal context. -/
structure StaysSmall (rate annuity : ℚ) (n : ℕ) (balance : ℚ) : Prop where
  annuity_le : |annuity| ≤ 10 ^ 23
  balance_le : ∀ k < n, |debtAfter rate annuity k balance| ≤ 10 ^ 23
  interest_le : ∀ k < n, |debtAfter rate annuity k balance * rate| ≤ 10 ^ 23

theorem StaysSmall.next {rate annuity balance : ℚ} {n : ℕ}
    (h : StaysSmall rate annuity (n + 1) balance) :
    StaysSmall rate annuity n (balance - (annuity - periodInterest rate balance)) :=
  ⟨h.annuity_le, fun k hk => h.balance_le (k + 1) (by omega),
    fun k hk => h.interest_le (k + 1) (by omega)⟩

theorem abs_periodInterest_le {rate balance : ℚ} (h : |balance * rate| ≤ 10 ^ 23) :
    |periodInterest rate balance| ≤ 2 * 10 ^ 23 := by
  unfold periodInterest
  generalize balance * rate = q at h ⊢
  have hdecimal := abs_decimal_le q
  have hclose := abs_roundAt_sub_le 4 (decimal q)
  have htri := abs_sub_abs_le_abs_sub (roundAt 4 (decimal q)) (decimal q)
  norm_num at hclose h ⊢
  linarith

theorem periodInterest_mem_grid (rate balance : ℚ) : periodInterest rate balance ∈ grid 4 :=
  roundAt_mem_grid 4 _

theorem quantized_interest {rate balance : ℚ} (h : |balance * rate| ≤ 10 ^ 23) :
    quantized (decimal (balance * rate)) = .ok (periodInterest rate balance) := by
  refine quantized_eq_ok.mpr ⟨?_, rfl⟩
  have hle := abs_periodInterest_le h
  unfold periodInterest at hle
  norm_num at hle ⊢
  linarith

theorem quantized_of_mem {q : ℚ} (hq : q ∈ grid 4) (hfits : |q| < 10 ^ 24) :
    quantized q = .ok q :=
  quantized_eq_ok.mpr ⟨by rwa [roundAt_of_mem hq], (roundAt_of_mem hq).symm⟩

/-- The annuity loop returns, and what it returns pays the balance off. -/
theorem annuityRows_paysOff {rate annuity : ℚ} (hannuity : annuity ∈ grid 4) (due : Date)
    (rest : List Date) (i : ℕ) {balance : ℚ} (hbalance : balance ∈ grid 4)
    (h : StaysSmall rate annuity (rest.length + 1) balance) :
    ∃ rows, annuityRows rate annuity i balance (due :: rest) = .ok rows ∧
      rows.length = rest.length + 1 ∧ PaysOff rate i balance rows := by
  have hsmall : |balance| ≤ 10 ^ 23 := h.balance_le 0 (by omega)
  have hproduct : |balance * rate| ≤ 10 ^ 23 := h.interest_le 0 (by omega)
  have hinterest := abs_periodInterest_le hproduct
  have hgrid := periodInterest_mem_grid rate balance
  induction rest generalizing due i balance with
  | nil =>
    have hlast : quantized balance = .ok balance :=
      quantized_of_mem hbalance (by norm_num at hsmall ⊢; linarith)
    have htotal : decimal (balance + periodInterest rate balance) =
        balance + periodInterest rate balance := by
      apply decimal_of_mem (add_mem hbalance hgrid)
      have htri := abs_add_le balance (periodInterest rate balance)
      norm_num at hsmall hinterest ⊢
      linarith
    refine ⟨[⟨i + 1, due, balance, periodInterest rate balance,
      decimal (balance + periodInterest rate balance)⟩], ?_, rfl, ?_⟩
    · simp only [annuityRows, quantized_interest hproduct, hlast, if_true, bind, Except.bind, pure,
        Except.pure]
    · apply PaysOff.cons _ rfl htotal rfl
      refine ⟨?_, ?_, by simp, ?_⟩
      · intro k row hrow
        cases hrow
      · intro row hrow
        cases hrow
      · intro k row hrow
        cases hrow
  | cons due' rest ih =>
    have hpay : annuity - periodInterest rate balance ∈ grid 4 := sub_mem hannuity hgrid
    have hpayLe : |annuity - periodInterest rate balance| ≤ 3 * 10 ^ 23 := by
      have htri := abs_sub annuity (periodInterest rate balance)
      have hle := h.annuity_le
      norm_num at hle hinterest ⊢
      linarith
    have hpaid : quantized (decimal (annuity - periodInterest rate balance)) =
        .ok (annuity - periodInterest rate balance) := by
      have hexact : decimal (annuity - periodInterest rate balance) =
          annuity - periodInterest rate balance :=
        decimal_of_mem hpay (by norm_num at hpayLe ⊢; linarith)
      rw [hexact]
      exact quantized_of_mem hpay (by norm_num at hpayLe ⊢; linarith)
    have hnext : decimal (balance - (annuity - periodInterest rate balance)) =
        balance - (annuity - periodInterest rate balance) := by
      apply decimal_of_mem (sub_mem hbalance hpay)
      have htri := abs_sub balance (annuity - periodInterest rate balance)
      norm_num at hsmall hpayLe ⊢
      linarith
    have htotal : decimal (annuity - periodInterest rate balance + periodInterest rate balance) =
        annuity - periodInterest rate balance + periodInterest rate balance := by
      rw [sub_add_cancel]
      have hle := h.annuity_le
      exact decimal_of_mem hannuity (by norm_num at hle ⊢; linarith)
    have hrest : StaysSmall rate annuity (rest.length + 1) _ := h.next
    obtain ⟨rows, hrows, hlength, hpays⟩ := ih due' (i + 1) (sub_mem hbalance hpay) hrest
      (hrest.balance_le 0 (by omega)) (hrest.interest_le 0 (by omega))
      (abs_periodInterest_le (hrest.interest_le 0 (by omega))) (periodInterest_mem_grid _ _)
    refine ⟨⟨i + 1, due, annuity - periodInterest rate balance, periodInterest rate balance,
      decimal (annuity - periodInterest rate balance + periodInterest rate balance)⟩ :: rows,
      ?_, by rw [List.length_cons, hlength, List.length_cons], ?_⟩
    · rw [annuityRows, quantized_interest hproduct]
      simp only [bind, Except.bind, hpaid, hnext, hrows, pure, Except.pure, reduceCtorEq, if_false]
    · exact PaysOff.cons hpays rfl htotal rfl

/-! ## The flat schedule -/

/-- What every period but the last pays of an amount. -/
def equalPart (amount : ℚ) (n : ℤ) : ℚ := roundAt 4 (decimal (amount / n))

/-- What the last period pays. -/
def residue (amount : ℚ) (n : ℤ) : ℚ := amount - equalPart amount n * (n - 1 : ℤ)

section

variable {amount : ℚ} {n : ℤ}

theorem equalPart_nonneg (hamount : 0 ≤ amount) (hn : 1 ≤ n) : 0 ≤ equalPart amount n := by
  have hn' : (0 : ℚ) < n := by exact_mod_cast hn
  exact roundAt_nonneg (decimal_nonneg (by positivity))

theorem equalPart_mem_grid (amount : ℚ) (n : ℤ) : equalPart amount n ∈ grid 4 := roundAt_mem_grid 4 _

theorem mul_int_mem_grid {q : ℚ} (hq : q ∈ grid 4) (k : ℤ) : q * k ∈ grid 4 := by
  obtain ⟨j, rfl⟩ := mem_grid.mp hq
  refine mem_grid.mpr ⟨j * k, ?_⟩
  push_cast
  ring

theorem residue_mem_grid (hamount : amount ∈ grid 4) (n : ℤ) : residue amount n ∈ grid 4 :=
  sub_mem hamount (mul_int_mem_grid (equalPart_mem_grid amount n) _)

/-- What rounds to nothing is paid nothing, so an equal part stays in proportion to the amount for
every number of periods. -/
theorem equalPart_le (hamount : 0 ≤ amount) (hn : 1 ≤ n) : equalPart amount n ≤ 3 * (amount / n) := by
  have hn' : (1 : ℚ) ≤ n := by exact_mod_cast hn
  have hquot : 0 ≤ amount / n := by positivity
  have hdecimal := abs_decimal_le (amount / n)
  rw [abs_of_nonneg (decimal_nonneg hquot), abs_of_nonneg hquot] at hdecimal
  have hdouble := roundAt_le_two_mul 4 (decimal_nonneg hquot)
  unfold equalPart
  linarith

theorem equalPart_mul_le (hamount : 0 ≤ amount) (hn : 1 ≤ n) :
    equalPart amount n * (n - 1 : ℤ) ≤ 3 * amount := by
  have hn' : (1 : ℚ) ≤ n := by exact_mod_cast hn
  have hpart := equalPart_le hamount hn
  push_cast
  calc equalPart amount n * ((n : ℚ) - 1)
      ≤ 3 * (amount / n) * ((n : ℚ) - 1) := mul_le_mul_of_nonneg_right hpart (by linarith)
    _ ≤ 3 * (amount / n) * n := mul_le_mul_of_nonneg_left (by linarith) (by positivity)
    _ = 3 * amount := by field_simp

/-- Splitting an amount is exact. -/
theorem split_exact (hgrid : amount ∈ grid 4) (hamount : 0 ≤ amount) (hle : amount ≤ 6 * 10 ^ 22)
    (hn : 1 ≤ n) :
    decimalDiv amount n = .ok (decimal (amount / n)) ∧
      quantized (decimal (amount / n)) = .ok (equalPart amount n) ∧
      decimal (amount - decimal (equalPart amount n * (n - 1 : ℤ))) = residue amount n := by
  have hn' : (0 : ℚ) < n := by exact_mod_cast hn
  have hquot : 0 ≤ amount / n := by positivity
  have hquotLe : amount / n ≤ amount := div_le_self hamount (by exact_mod_cast hn)
  have hdecimal := abs_decimal_le (amount / n)
  have hparts := equalPart_mul_le hamount hn
  have hpart := equalPart_nonneg hamount hn
  have hsteps : (0 : ℚ) ≤ (n - 1 : ℤ) := by exact_mod_cast (by omega : (0 : ℤ) ≤ n - 1)
  have hproduct : 0 ≤ equalPart amount n * (n - 1 : ℤ) := mul_nonneg hpart hsteps
  refine ⟨decimalDiv_of_ne hn'.ne', ?_, ?_⟩
  · apply quantized_of_le
    rw [abs_of_nonneg hquot] at hdecimal
    norm_num at hle ⊢
    linarith
  · have hexact : decimal (equalPart amount n * (n - 1 : ℤ)) = equalPart amount n * (n - 1 : ℤ) := by
      apply decimal_of_mem (mul_int_mem_grid (equalPart_mem_grid amount n) _)
      rw [abs_of_nonneg hproduct]
      norm_num at hle hparts ⊢
      linarith
    rw [hexact]
    apply decimal_of_mem (residue_mem_grid hgrid n)
    unfold residue
    generalize equalPart amount n * (n - 1 : ℤ) = parts at hparts hproduct
    rw [abs_lt]
    norm_num at hle hparts ⊢
    constructor <;> linarith

end

/-- The interest of the whole term, in decimal arithmetic. -/
def flatInterest (principal annualInterestRate : ℚ) (n : ℤ) (perYear : ℕ) : ℚ :=
  roundAt 4 (decimal (decimal (principal * decimal (annualInterestRate / 100)) *
    decimal ((n : ℚ) / perYear)))

/-- The interest of the whole term, exactly. -/
def exactInterest (principal annualInterestRate : ℚ) (n : ℤ) (perYear : ℕ) : ℚ :=
  principal * (annualInterestRate / 100) * ((n : ℚ) / perYear)

theorem periodsPerYear_pos {frequency : RepaymentFrequency} {perYear : ℕ}
    (h : periodsPerYear frequency = .ok perYear) : 0 < perYear ∧ perYear ≤ 52 := by
  cases frequency <;> cases h <;> decide

section

variable {principal rate : ℚ} {frequency : RepaymentFrequency} {perYear : ℕ} {n : ℤ} {d : Date}
  {dates : List Date}

/-- Four roundings to 28 digits move the product by less than three parts in `10 ^ 27`. -/
theorem flatProduct_close (hprincipal : 0 ≤ principal) (hrate : 0 ≤ rate) (hn : 1 ≤ n)
    (hper : 0 < perYear) :
    0 ≤ exactInterest principal rate n perYear ∧
      0 ≤ decimal (decimal (principal * decimal (rate / 100)) * decimal ((n : ℚ) / perYear)) ∧
      |decimal (decimal (principal * decimal (rate / 100)) * decimal ((n : ℚ) / perYear)) -
        exactInterest principal rate n perYear| ≤
          exactInterest principal rate n perYear * (3 / 10 ^ 27) := by
  have hn' : (0 : ℚ) < n := by exact_mod_cast hn
  have hper' : (0 : ℚ) < perYear := by exact_mod_cast hper
  have hr0 : 0 ≤ rate / 100 := by positivity
  have hy0 : (0 : ℚ) ≤ n / perYear := by positivity
  unfold exactInterest
  generalize rate / 100 = r at hr0
  generalize (n : ℚ) / perYear = y at hy0
  obtain ⟨hr, hr'⟩ := decimal_bounds hr0
  obtain ⟨hy, hy'⟩ := decimal_bounds hy0
  have hrd := decimal_nonneg hr0
  have hyd := decimal_nonneg hy0
  generalize decimal r = r' at hr hr' hrd
  generalize decimal y = y' at hy hy' hyd
  have hpr0 : 0 ≤ principal * r' := mul_nonneg hprincipal hrd
  obtain ⟨hpr, hpr'⟩ := decimal_bounds hpr0
  have hprd := decimal_nonneg hpr0
  generalize decimal (principal * r') = s at hpr hpr' hprd
  have hs0 : 0 ≤ s * y' := mul_nonneg hprd hyd
  obtain ⟨ht, ht'⟩ := decimal_bounds hs0
  have htd := decimal_nonneg hs0
  generalize decimal (s * y') = t at ht ht' htd
  have hexact : 0 ≤ principal * r * y := by positivity
  refine ⟨hexact, htd, ?_⟩
  -- each factor is known up to `1 ± u`, so the product is up to `(1 ± u) ^ 4`
  have hupS : s ≤ (1 + 5 / 10 ^ 28) ^ 2 * (principal * r) := by
    calc s ≤ (1 + 5 / 10 ^ 28) * (principal * r') := hpr'
      _ ≤ (1 + 5 / 10 ^ 28) * (principal * ((1 + 5 / 10 ^ 28) * r)) := by gcongr
      _ = _ := by ring
  have hlowS : (1 - 5 / 10 ^ 28) ^ 2 * (principal * r) ≤ s := by
    calc (1 - 5 / 10 ^ 28) ^ 2 * (principal * r)
        = (1 - 5 / 10 ^ 28) * (principal * ((1 - 5 / 10 ^ 28) * r)) := by ring
      _ ≤ (1 - 5 / 10 ^ 28) * (principal * r') := by
          apply mul_le_mul_of_nonneg_left _ (by norm_num)
          exact mul_le_mul_of_nonneg_left hr hprincipal
      _ ≤ s := hpr
  have hup : t ≤ (1 + 5 / 10 ^ 28) ^ 4 * (principal * r * y) := by
    calc t ≤ (1 + 5 / 10 ^ 28) * (s * y') := ht'
      _ ≤ (1 + 5 / 10 ^ 28) *
            ((1 + 5 / 10 ^ 28) ^ 2 * (principal * r) * ((1 + 5 / 10 ^ 28) * y)) := by gcongr
      _ = _ := by ring
  have hlow : (1 - 5 / 10 ^ 28) ^ 4 * (principal * r * y) ≤ t := by
    calc (1 - 5 / 10 ^ 28) ^ 4 * (principal * r * y)
        = (1 - 5 / 10 ^ 28) *
            ((1 - 5 / 10 ^ 28) ^ 2 * (principal * r) * ((1 - 5 / 10 ^ 28) * y)) := by ring
      _ ≤ (1 - 5 / 10 ^ 28) * (s * y') := by
          apply mul_le_mul_of_nonneg_left _ (by norm_num)
          exact mul_le_mul hlowS hy (mul_nonneg (by norm_num) hy0) hprd
      _ ≤ t := ht
  rw [abs_le]
  have hone : ((1 : ℚ) + 5 / 10 ^ 28) ^ 4 ≤ 1 + 3 / 10 ^ 27 := by norm_num
  have hone' : 1 - 3 / 10 ^ 27 ≤ ((1 : ℚ) - 5 / 10 ^ 28) ^ 4 := by norm_num
  have hmul := mul_le_mul_of_nonneg_right hone hexact
  have hmul' := mul_le_mul_of_nonneg_right hone' hexact
  constructor <;> linarith

theorem flatInterest_bounds (hprincipal : 0 ≤ principal) (hrate : 0 ≤ rate) (hn : 1 ≤ n)
    (hper : 0 < perYear) (hle : exactInterest principal rate n perYear ≤ 10 ^ 22) :
    0 ≤ flatInterest principal rate n perYear ∧
      flatInterest principal rate n perYear ≤ 6 * 10 ^ 22 ∧
      quantized (decimal (decimal (principal * decimal (rate / 100)) * decimal ((n : ℚ) / perYear)))
        = .ok (flatInterest principal rate n perYear) := by
  obtain ⟨hexact, hnonneg, hclose⟩ := flatProduct_close hprincipal hrate hn hper
  unfold flatInterest
  generalize decimal (decimal (principal * decimal (rate / 100)) * decimal ((n : ℚ) / perYear)) = t
    at hnonneg hclose ⊢
  have hround := (abs_le.mp (abs_roundAt_sub_le 4 t)).2
  have ht : t ≤ 2 * 10 ^ 22 := by
    have := (abs_le.mp hclose).2
    norm_num at hle this ⊢
    linarith
  refine ⟨roundAt_nonneg hnonneg, ?_, quantized_of_le ?_⟩
  · norm_num at hround ht ⊢
    linarith
  · rw [abs_of_nonneg hnonneg]
    norm_num at ht ⊢
    linarith

/-- The flat schedule returns equal parts of the principal and of the interest. -/
theorem flatSchedule_eq (hgrid : principal ∈ grid 4) (hprincipal : 0 ≤ principal)
    (hfits : principal ≤ 10 ^ 22) (hrate : 0 ≤ rate)
    (hper : periodsPerYear frequency = .ok perYear) (hn : 1 ≤ n)
    (hdates : dueDates frequency n.toNat d = .ok dates)
    (hle : exactInterest principal rate n perYear ≤ 10 ^ 22) :
    flatSchedule principal rate frequency n d = .ok (splitRows (equalPart principal n)
      (residue principal n) (equalPart (flatInterest principal rate n perYear) n)
      (residue (flatInterest principal rate n perYear) n) 0 dates) := by
  obtain ⟨hpos, -⟩ := periodsPerYear_pos hper
  obtain ⟨hT, hTle, hquant⟩ := flatInterest_bounds hprincipal hrate hn hpos hle
  have hTgrid : flatInterest principal rate n perYear ∈ grid 4 := roundAt_mem_grid 4 _
  obtain ⟨hdiv, hpart, hres⟩ := split_exact hgrid hprincipal (by norm_num at hfits ⊢; linarith) hn
  obtain ⟨hdiv', hpart', hres'⟩ := split_exact hTgrid hT hTle hn
  have hper' : (perYear : ℚ) ≠ 0 := by exact_mod_cast hpos.ne'
  unfold flatSchedule
  simp only [hper, decimalDiv_of_ne hper', hquant, hdiv, hpart, hdiv', hpart', hdates, hres, hres', bind,
    Except.bind, pure, Except.pure]

end

/-! ## The reducing schedule -/

/-- `period_rate`. -/
def periodRate (annualInterestRate : ℚ) (perYear : ℕ) : ℚ :=
  decimal (decimal (annualInterestRate / 100) / perYear)

/-- `1 / one_plus_r_power_n`. -/
def discountOf (rate : ℚ) (n : ℤ) : ℚ := decimal (1 / decimal (decimal (1 + rate) ^ n))

/-- `annuity`. -/
def annuityOf (principal rate : ℚ) (n : ℤ) : ℚ :=
  roundAt 4 (decimal (decimal (principal * rate) / decimal (1 - discountOf rate n)))

theorem periodRate_eq_zero {rate : ℚ} {perYear : ℕ} (hrate : 0 ≤ rate) (hper : 0 < perYear) :
    periodRate rate perYear = 0 ↔ rate = 0 := by
  have hper' : (0 : ℚ) < perYear := by exact_mod_cast hper
  constructor
  · intro h
    by_contra hne
    have hpos : 0 < rate := lt_of_le_of_ne hrate (Ne.symm hne)
    exact (decimal_pos (div_pos (decimal_pos (div_pos hpos (by norm_num))) hper')).ne' h
  · rintro rfl
    simp [periodRate, decimal_zero]

theorem decimalPow_of_lt {base : ℚ} {n : ℤ} (hbase : 0 < base) (hlt : base ^ n < 10 ^ 999999) :
    decimalPow base n = .ok (decimal (base ^ n)) := by
  unfold decimalPow
  have hpos : 0 < base ^ n := zpow_pos hbase n
  generalize base ^ n = q at hlt hpos
  have hlead := pow_leadingExponent_le (decimal_pos hpos).ne'
  have hle := abs_decimal_le q
  rw [abs_of_pos hpos] at hle
  have hexp : (10 : ℚ) ^ leadingExponent (decimal q) < (10 : ℚ) ^ ((999999 : ℤ) + 1) := by
    rw [zpow_add₀ (by norm_num), show (10 : ℚ) ^ (999999 : ℤ) = 10 ^ 999999 from
      zpow_natCast 10 999999]
    generalize (10 : ℚ) ^ 999999 = bound at hlt ⊢
    rw [zpow_one]
    linarith
  have hlt' := (zpow_lt_zpow_iff_right₀ (by norm_num)).mp hexp
  rw [if_neg (by omega)]
  rfl

section

variable {principal rate : ℚ} {frequency : RepaymentFrequency} {perYear : ℕ} {n : ℤ} {d : Date}
  {dates : List Date}

/-- A rate that is visible beside one compounds to more than one, and discounts to less. -/
theorem discountOf_bounds (hrate : 1 / 10 ^ 27 ≤ rate) (hn : 1 ≤ n) :
    0 < discountOf rate n ∧ discountOf rate n ≤ 1 - 5 / 10 ^ 28 := by
  have hsmall : decimal (1 + 1 / 10 ^ 27) = 1 + 1 / 10 ^ 27 := by
    apply inContext_of_mem (s := 27)
    · exact mem_grid.mpr ⟨10 ^ 27 + 1, by norm_num⟩
    · norm_num [abs_of_pos]
  have hbase : 1 + 1 / 10 ^ 27 ≤ decimal (1 + rate) := by
    rw [← hsmall]
    exact decimal_mono (by linarith)
  have hone : 1 ≤ decimal (1 + rate) := by
    norm_num at hbase ⊢
    linarith
  have hpow : 1 + 1 / 10 ^ 27 ≤ decimal (1 + rate) ^ n := by
    calc (1 : ℚ) + 1 / 10 ^ 27 ≤ decimal (1 + rate) := hbase
      _ = decimal (1 + rate) ^ (1 : ℤ) := (zpow_one _).symm
      _ ≤ decimal (1 + rate) ^ n := zpow_le_zpow_right₀ hone hn
  have hpower : 1 + 1 / 10 ^ 27 ≤ decimal (decimal (1 + rate) ^ n) := by
    rw [← hsmall]
    exact decimal_mono hpow
  have hpos : (0 : ℚ) < 1 + 1 / 10 ^ 27 := by norm_num
  refine ⟨decimal_pos (one_div_pos.mpr (hpos.trans_le hpower)), ?_⟩
  have hkept : decimal (1 - 5 / 10 ^ 28) = 1 - 5 / 10 ^ 28 := by
    apply inContext_of_mem (s := 28)
    · exact mem_grid.mpr ⟨10 ^ 28 - 5, by norm_num⟩
    · norm_num [abs_of_pos]
  unfold discountOf
  rw [← hkept]
  apply decimal_mono
  calc 1 / decimal (decimal (1 + rate) ^ n) ≤ 1 / (1 + 1 / 10 ^ 27) :=
        one_div_le_one_div_of_le hpos hpower
    _ ≤ 1 - 5 / 10 ^ 28 := by norm_num

/-- At a rate of zero the principal is split. -/
theorem reducingSchedule_zero (hgrid : principal ∈ grid 4) (hprincipal : 0 ≤ principal)
    (hfits : principal ≤ 10 ^ 22) (hper : periodsPerYear frequency = .ok perYear) (hn : 1 ≤ n)
    (hdates : dueDates frequency n.toNat d = .ok dates) :
    reducingSchedule principal 0 frequency n d =
      .ok (splitRows (equalPart principal n) (residue principal n) 0 0 0 dates) := by
  obtain ⟨hpos, -⟩ := periodsPerYear_pos hper
  have hper' : (perYear : ℚ) ≠ 0 := by exact_mod_cast hpos.ne'
  obtain ⟨hdiv, hpart, hres⟩ := split_exact hgrid hprincipal (by norm_num at hfits ⊢; linarith) hn
  have hzero : decimal (decimal ((0 : ℚ) / 100) / perYear) = 0 :=
    (periodRate_eq_zero le_rfl hpos).mpr rfl
  unfold reducingSchedule
  simp only [hper, decimalDiv_of_ne hper', hzero, if_true, hdiv, hpart, hdates, hres, bind,
    Except.bind, pure, Except.pure]

/-- At any other rate the annuity is paid. -/
theorem reducingSchedule_eq (hper : periodsPerYear frequency = .ok perYear) (hn : 1 ≤ n)
    (hvisible : 1 / 10 ^ 27 ≤ periodRate rate perYear)
    (hgrowth : decimal (1 + periodRate rate perYear) ^ n < 10 ^ 999999)
    (hannuity : |annuityOf principal (periodRate rate perYear) n| < 10 ^ 24)
    (hdates : dueDates frequency n.toNat d = .ok dates) :
    reducingSchedule principal rate frequency n d =
      annuityRows (periodRate rate perYear) (annuityOf principal (periodRate rate perYear) n) 0
        principal dates := by
  obtain ⟨hpos, -⟩ := periodsPerYear_pos hper
  have hper' : (perYear : ℚ) ≠ 0 := by exact_mod_cast hpos.ne'
  have hrate : 0 < periodRate rate perYear := lt_of_lt_of_le (by norm_num) hvisible
  obtain ⟨-, hdiscount⟩ := discountOf_bounds hvisible hn
  have hden : decimal (1 - discountOf (periodRate rate perYear) n) ≠ 0 := by
    apply (decimal_pos _).ne'
    norm_num at hdiscount ⊢
    linarith
  have hpower := decimalPow_of_lt (decimal_pos (by linarith : 0 < 1 + periodRate rate perYear)) hgrowth
  have hpowerPos : 0 < decimal (decimal (1 + periodRate rate perYear) ^ n) :=
    decimal_pos (zpow_pos (decimal_pos (by linarith)) n)
  have hquant := quantized_eq_ok.mpr ⟨hannuity, rfl⟩
  unfold reducingSchedule
  simp only [hper, decimalDiv_of_ne hper', bind, Except.bind]
  rw [if_neg (show ¬ decimal (decimal (rate / 100) / perYear) = 0 from hrate.ne')]
  unfold periodRate at hpower hpowerPos hden hquant
  unfold discountOf at hden hquant
  simp only [hpower, decimalDiv_of_ne hpowerPos.ne', decimalDiv_of_ne hden, hquant, hdates]
  rfl

end

/-! ## What every schedule adds up to -/

/-- The instalments are numbered, and add up. -/
structure AddsUp (principal : ℚ) (n : ℤ) (rows : List ScheduledInstallment) : Prop where
  length : rows.length = n.toNat
  numbered : Numbered 0 rows
  total : ∀ row ∈ rows, row.totalDue = row.principalDue + row.interestDue
  sum : (rows.map (·.principalDue)).sum = principal

/-- The interest of a schedule is the product as decimal arithmetic evaluates it, rounded. That is
the exact product rounded, unless the product is within the error of the evaluation of a tie. -/
def InterestRounded (principal rate : ℚ) (perYear : ℕ) (n : ℤ) (rows : List ScheduledInstallment) :
    InterestMethod → Prop
  | .flat =>
    let exact := exactInterest principal rate n perYear
    (rows.map (·.interestDue)).sum = flatInterest principal rate n perYear ∧
      (¬ NearHalfway 4 (exact * (3 / 10 ^ 27)) exact →
        (rows.map (·.interestDue)).sum = roundAt 4 exact)
  | .reducingBalance => ∀ (k : ℕ) (row : ScheduledInstallment), rows[k]? = some row →
    let exact := ((rows.drop k).map (·.principalDue)).sum * periodRate rate perYear
    row.interestDue = roundAt 4 (decimal exact) ∧
      (¬ NearHalfway 4 (|exact| * (5 / 10 ^ 28)) exact → row.interestDue = roundAt 4 exact)

/-- The amounts of a schedule stay within the digits and the exponents of the decimal context. -/
def FitsContext (principal rate : ℚ) (perYear : ℕ) (n : ℤ) : InterestMethod → Prop
  | .flat => principal ≤ 10 ^ 22 ∧ exactInterest principal rate n perYear ≤ 10 ^ 22
  | .reducingBalance => principal ≤ 10 ^ 22 ∧
    (rate = 0 ∨ 1 / 10 ^ 27 ≤ periodRate rate perYear ∧
      decimal (1 + periodRate rate perYear) ^ n < 10 ^ 999999 ∧
      StaysSmall (periodRate rate perYear) (annuityOf principal (periodRate rate perYear) n) n.toNat
        principal)

theorem equalPart_zero (n : ℤ) : equalPart 0 n = 0 := by
  rw [equalPart, zero_div, decimal_zero]
  exact roundAt_of_mem (zero_mem _)

theorem residue_zero (n : ℤ) : residue 0 n = 0 := by
  rw [residue, equalPart_zero]
  ring

theorem abs_equalPart_le {amount : ℚ} {n : ℤ} (hamount : 0 ≤ amount) (hn : 1 ≤ n) :
    |equalPart amount n| ≤ 3 * amount := by
  have hpart := equalPart_le hamount hn
  have hquot : amount / n ≤ amount := div_le_self hamount (by exact_mod_cast hn)
  rw [abs_of_nonneg (equalPart_nonneg hamount hn)]
  linarith

theorem abs_residue_le {amount : ℚ} {n : ℤ} (hamount : 0 ≤ amount) (hn : 1 ≤ n) :
    |residue amount n| ≤ 3 * amount := by
  have hsteps : (0 : ℚ) ≤ (n - 1 : ℤ) := by exact_mod_cast (by omega : (0 : ℤ) ≤ n - 1)
  have hparts := equalPart_mul_le hamount hn
  have hnonneg : 0 ≤ equalPart amount n * (n - 1 : ℤ) :=
    mul_nonneg (equalPart_nonneg hamount hn) hsteps
  unfold residue
  rw [abs_le]
  constructor <;> linarith

section

variable {principal rate : ℚ} {method : InterestMethod} {frequency : RepaymentFrequency}
  {perYear : ℕ} {n : ℤ} {d : Date} {dates : List Date}

/-- Splitting a principal and an interest adds up to both. -/
theorem splitRows_addsUp {interest : ℚ} (hgrid : principal ∈ grid 4) (hgrid' : interest ∈ grid 4)
    (hprincipal : 0 ≤ principal) (hinterest : 0 ≤ interest) (hle : principal ≤ 10 ^ 22)
    (hle' : interest ≤ 6 * 10 ^ 22) (hn : 1 ≤ n) (hlength : dates.length = n.toNat) :
    AddsUp principal n (splitRows (equalPart principal n) (residue principal n)
        (equalPart interest n) (residue interest n) 0 dates) ∧
      ((splitRows (equalPart principal n) (residue principal n) (equalPart interest n)
        (residue interest n) 0 dates).map (·.interestDue)).sum = interest := by
  cases dates with
  | nil =>
    rw [List.length_nil] at hlength
    omega
  | cons due rest =>
    obtain ⟨hsum, hsum'⟩ := @splitRows_sums (equalPart principal n) (residue principal n)
      (equalPart interest n) (residue interest n) 0 due rest
    have hrest : (rest.length : ℚ) = (n - 1 : ℤ) := by
      have hint : (rest.length : ℤ) = n - 1 := by
        rw [List.length_cons] at hlength
        omega
      exact_mod_cast hint
    refine ⟨⟨?_, splitRows_numbered 0 _, ?_, ?_⟩, ?_⟩
    · rw [splitRows_length, hlength]
    · intro row hrow
      obtain ⟨hdues, htotal⟩ := splitRows_mem hrow
      rw [htotal]
      have hpart := abs_equalPart_le hprincipal hn
      have hpart' := abs_equalPart_le hinterest hn
      have hres := abs_residue_le hprincipal hn
      have hres' := abs_residue_le hinterest hn
      have htri := abs_add_le row.principalDue row.interestDue
      -- every amount is on the grid and far below `10 ^ 24`
      rcases hdues with ⟨hp, hq⟩ | ⟨hp, hq⟩
      · apply decimal_of_mem
        · rw [hp, hq]
          exact add_mem (equalPart_mem_grid _ _) (equalPart_mem_grid _ _)
        · rw [hp, hq] at htri ⊢
          norm_num at hle hle' ⊢
          linarith
      · apply decimal_of_mem
        · rw [hp, hq]
          exact add_mem (residue_mem_grid hgrid _) (residue_mem_grid hgrid' _)
        · rw [hp, hq] at htri ⊢
          norm_num at hle hle' ⊢
          linarith
    · rw [hsum, hrest, residue]
      ring
    · rw [hsum', hrest, residue]
      ring

theorem flatSchedule_addsUp (hgrid : principal ∈ grid 4) (hprincipal : 0 ≤ principal)
    (hrate : 0 ≤ rate) (hper : periodsPerYear frequency = .ok perYear) (hn : 1 ≤ n)
    (hdates : dueDates frequency n.toNat d = .ok dates)
    (hfits : FitsContext principal rate perYear n .flat) :
    ∃ rows, flatSchedule principal rate frequency n d = .ok rows ∧ AddsUp principal n rows ∧
      InterestRounded principal rate perYear n rows .flat := by
  obtain ⟨hle, hexact⟩ := hfits
  obtain ⟨hpos, -⟩ := periodsPerYear_pos hper
  obtain ⟨hT, hTle, -⟩ := flatInterest_bounds hprincipal hrate hn hpos hexact
  have hTgrid : flatInterest principal rate n perYear ∈ grid 4 := roundAt_mem_grid 4 _
  obtain ⟨hadds, hsum⟩ := splitRows_addsUp hgrid hTgrid hprincipal hT hle hTle hn
    (dueDates_length hdates)
  refine ⟨_, flatSchedule_eq hgrid hprincipal hle hrate hper hn hdates hexact, hadds, hsum, ?_⟩
  intro haway
  rw [hsum]
  obtain ⟨-, -, hclose⟩ := flatProduct_close hprincipal hrate hn hpos
  exact roundAt_eq_of_close hclose haway

theorem PaysOff.interestRounded {rows : List ScheduledInstallment}
    (h : PaysOff (periodRate rate perYear) 0 principal rows) :
    InterestRounded principal rate perYear n rows .reducingBalance := by
  intro k row hrow
  have hinterest := h.interest k row hrow
  refine ⟨hinterest, ?_⟩
  intro haway
  rw [hinterest]
  exact roundAt_eq_of_close (abs_decimal_sub_le _) haway

theorem reducingSchedule_addsUp (hgrid : principal ∈ grid 4) (hprincipal : 0 ≤ principal)
    (hper : periodsPerYear frequency = .ok perYear) (hn : 1 ≤ n)
    (hdates : dueDates frequency n.toNat d = .ok dates)
    (hfits : FitsContext principal rate perYear n .reducingBalance) :
    ∃ rows, reducingSchedule principal rate frequency n d = .ok rows ∧ AddsUp principal n rows ∧
      InterestRounded principal rate perYear n rows .reducingBalance := by
  obtain ⟨hle, hcase⟩ := hfits
  obtain ⟨hpos, -⟩ := periodsPerYear_pos hper
  have hlength := dueDates_length hdates
  rcases hcase with rfl | ⟨hvisible, hgrowth, hsmall⟩
  · obtain ⟨hadds, -⟩ := splitRows_addsUp hgrid (zero_mem _) hprincipal le_rfl hle (by norm_num) hn
      hlength
    rw [equalPart_zero, residue_zero] at hadds
    refine ⟨_, reducingSchedule_zero hgrid hprincipal hle hper hn hdates, hadds, ?_⟩
    intro k row hrow
    have hzero : row.interestDue = 0 := by
      obtain ⟨hdues, -⟩ := splitRows_mem (List.mem_of_getElem? hrow)
      rcases hdues with ⟨-, hq⟩ | ⟨-, hq⟩ <;> exact hq
    have hround : roundAt 4 0 = 0 := roundAt_of_mem (zero_mem _)
    dsimp only
    rw [(periodRate_eq_zero le_rfl hpos).mpr rfl, mul_zero, decimal_zero, hround]
    exact ⟨hzero, fun _ => hzero⟩
  · have hannuity : |annuityOf principal (periodRate rate perYear) n| < 10 ^ 24 :=
      lt_of_le_of_lt hsmall.annuity_le (by norm_num)
    cases dates with
    | nil =>
      rw [List.length_nil] at hlength
      omega
    | cons due rest =>
      rw [List.length_cons] at hlength
      rw [← hlength] at hsmall
      obtain ⟨rows, hrows, hlen, hpays⟩ := annuityRows_paysOff
        (roundAt_mem_grid 4 _) due rest 0 hgrid hsmall
      refine ⟨rows, ?_, ⟨hlen.trans hlength, hpays.numbered, hpays.total, hpays.principal⟩,
        hpays.interestRounded⟩
      rw [reducingSchedule_eq hper hn hvisible hgrowth hannuity hdates]
      exact hrows

/-- A schedule within the calendar and the decimal context pays off exactly the principal. -/
theorem computeSchedule_adds_up (hgrid : principal ∈ grid 4) (hprincipal : 0 < principal)
    (hrate : 0 ≤ rate) (hper : periodsPerYear frequency = .ok perYear) (hn : 1 ≤ n)
    (hdates : dueDates frequency n.toNat d = .ok dates)
    (hfits : FitsContext principal rate perYear n method) :
    ∃ rows, computeSchedule principal rate method frequency n d = .ok rows ∧
      AddsUp principal n rows ∧ InterestRounded principal rate perYear n rows method := by
  cases method with
  | flat => exact flatSchedule_addsUp hgrid hprincipal.le hrate hper hn hdates hfits
  | reducingBalance => exact reducingSchedule_addsUp hgrid hprincipal.le hper hn hdates hfits

end

theorem computeSchedule_adds_up_fortnight :
    ∃ rows, computeSchedule 1000 12 .reducingBalance .weekly 2 ⟨738886, by decide⟩ = .ok rows ∧
      AddsUp 1000 2 rows ∧ InterestRounded 1000 12 52 2 rows .reducingBalance := by
  have hdates : dueDates .weekly (2 : ℤ).toNat ⟨738886, by decide⟩ =
      .ok [⟨738893, by decide⟩, ⟨738900, by decide⟩] := by decide +kernel
  apply computeSchedule_adds_up (mem_grid.mpr ⟨10000000, by norm_num⟩) (by norm_num) (by norm_num) rfl
    (by decide) hdates
  refine ⟨by norm_num, .inr ⟨by decide +kernel, by decide +kernel, ?_⟩⟩
  exact ⟨by decide +kernel, by decide +kernel, by decide +kernel⟩

/-- Next to a tie the interest is a unit off either way, and there is no schedule past the end of the
calendar, past the digits of the context, or at a rate that is lost beside one. -/
theorem computeSchedule_not_exact :
    ((computeSchedule (162 / 100) 1 .flat .monthly 7 ⟨738886, by decide⟩).map
        fun rows => (rows.map (·.interestDue)).sum) = .ok (94 / 10000) ∧
      roundAt 4 (exactInterest (162 / 100) 1 7 12) = 95 / 10000 ∧
      ((computeSchedule (6 / 100) 1 .reducingBalance .monthly 1 ⟨738886, by decide⟩).map
        fun rows => rows.map fun row => (row.principalDue, row.interestDue)) =
          .ok [(6 / 100, 1 / 10000)] ∧
      roundAt 4 (periodRate 1 12 * (6 / 100)) = 0 ∧
      computeSchedule 1 0 .flat .weekly 1 ⟨3652059, by decide⟩ = .error .overflowError ∧
      computeSchedule (10 ^ 25) 0 .flat .weekly 1 ⟨738886, by decide⟩ = .error .decimalError ∧
      computeSchedule 1 (1 / 10 ^ 30) .reducingBalance .weekly 1 ⟨738886, by decide⟩ =
        .error .decimalError := by
  decide +kernel

end SaccoPlatform
