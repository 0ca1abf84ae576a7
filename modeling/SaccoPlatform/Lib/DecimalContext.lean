import SaccoPlatform.Lib.Numeric
import Mathlib.Data.Nat.Log

/-!
# Decimal arithmetic with a bounded number of digits

Decimal floating point keeps a fixed number of significant digits: the result of an
operation is the exact value rounded half to even. `quantize` rounds to a number of
decimals and fails when the result has more digits than the context keeps.
-/

namespace SaccoPlatform.Lib

/-- The exponent of the leading digit of a nonzero rational. -/
def leadingExponent (q : ℚ) : ℤ :=
  let e : ℤ := (Nat.log 10 q.num.natAbs : ℤ) - (Nat.log 10 q.den : ℤ)
  if (10 : ℚ) ^ e ≤ |q| then e else e - 1

/-- Round to an integer, half to even. -/
def roundHalfEven (q : ℚ) : ℤ :=
  let f := ⌊q⌋
  let r := q - f
  if r < 1 / 2 then f else if 1 / 2 < r then f + 1 else if f % 2 = 0 then f else f + 1

/-- The value kept of an exact result in a context of `prec` significant digits. -/
def inContext (prec : ℕ) (q : ℚ) : ℚ :=
  if q = 0 then 0
  else
    let shift : ℤ := (prec : ℤ) - 1 - leadingExponent q
    roundHalfEven (q * (10 : ℚ) ^ shift) / (10 : ℚ) ^ shift

/-- A sum, rounded after every addition. -/
def sumInContext (prec : ℕ) (qs : List ℚ) : ℚ := qs.foldl (fun sum q => inContext prec (sum + q)) 0

/-- `x.quantize(10^-s, ROUND_HALF_UP)`: fails when the result needs more than `prec`
digits. -/
def quantize? (prec s : ℕ) (q : ℚ) : Option ℚ :=
  if |roundAt s q| * 10 ^ s < 10 ^ prec then some (roundAt s q) else none

example : inContext 4 (2 / 3) = 6667 / 10000 := by decide +kernel

/-! ## Exact results -/

theorem roundHalfEven_intCast (k : ℤ) : roundHalfEven (k : ℚ) = k := by
  unfold roundHalfEven
  have hlt : (k : ℚ) - (k : ℤ) < 1 / 2 := by
    rw [sub_self]
    norm_num
  simp only [Int.floor_intCast]
  rw [if_pos hlt]

/-- The leading digit stands at its exponent. -/
theorem pow_leadingExponent_le {q : ℚ} (hq : q ≠ 0) : (10 : ℚ) ^ leadingExponent q ≤ |q| := by
  unfold leadingExponent
  dsimp only
  split
  · assumption
  · have hnum : (10 : ℚ) ^ Nat.log 10 q.num.natAbs ≤ (q.num.natAbs : ℚ) := by
      exact_mod_cast Nat.pow_log_le_self 10 (by simpa using hq)
    have hden : (q.den : ℚ) ≤ (10 : ℚ) ^ (Nat.log 10 q.den + 1) := by
      exact_mod_cast (Nat.lt_pow_succ_log_self (by norm_num) q.den).le
    have hpos : (0 : ℚ) < q.den := by exact_mod_cast q.den_pos
    have habs : |q| = (q.num.natAbs : ℚ) / q.den := by
      conv_lhs => rw [← Rat.num_div_den q]
      rw [abs_div, Nat.abs_cast, Nat.cast_natAbs, Int.cast_abs]
    have hexp : (10 : ℚ) ^ ((Nat.log 10 q.num.natAbs : ℤ) - (Nat.log 10 q.den : ℤ) - 1)
        = (10 : ℚ) ^ Nat.log 10 q.num.natAbs / (10 : ℚ) ^ (Nat.log 10 q.den + 1) := by
      rw [sub_sub, zpow_sub₀ (by norm_num), zpow_natCast]
      norm_cast
    rw [hexp, habs]
    exact div_le_div₀ (Nat.cast_nonneg _) hnum hpos hden

/-- The leading digit of a value stands below a power of ten that the value stays below. -/
theorem leadingExponent_lt {q : ℚ} {m : ℕ} (hlt : |q| < 10 ^ m) : leadingExponent q < m := by
  by_cases hzero : q = 0
  · have hlead : leadingExponent 0 = -1 := by decide +kernel
    rw [hzero, hlead]
    omega
  · have hpow : (10 : ℚ) ^ leadingExponent q < (10 : ℚ) ^ (m : ℤ) := by
      rw [zpow_natCast]
      exact lt_of_le_of_lt (pow_leadingExponent_le hzero) hlt
    exact (zpow_lt_zpow_iff_right₀ (by norm_num)).mp hpow

/-- A value of the grid with few enough digits is kept as it is. -/
theorem inContext_of_mem {prec s : ℕ} {q : ℚ} (hq : q ∈ grid s) (hfits : |q| * 10 ^ s < 10 ^ prec) :
    inContext prec q = q := by
  by_cases hzero : q = 0
  · rw [inContext, if_pos hzero, hzero]
  · obtain ⟨k, hk⟩ := mem_grid.mp hq
    have hlt : (10 : ℚ) ^ (leadingExponent q + s) < (10 : ℚ) ^ (prec : ℤ) := by
      rw [zpow_add₀ (by norm_num), zpow_natCast, zpow_natCast]
      refine lt_of_le_of_lt ?_ hfits
      exact mul_le_mul_of_nonneg_right (pow_leadingExponent_le hzero) (by positivity)
    have hexp : leadingExponent q + s < prec := (zpow_lt_zpow_iff_right₀ (by norm_num)).mp hlt
    obtain ⟨n, hn⟩ : ∃ n : ℕ, (prec : ℤ) - 1 - leadingExponent q = s + n :=
      ⟨((prec : ℤ) - 1 - leadingExponent q - s).toNat, by omega⟩
    have hp : (10 : ℚ) ^ ((s : ℤ) + n) ≠ 0 := zpow_ne_zero _ (by norm_num)
    have hint : q * (10 : ℚ) ^ ((s : ℤ) + n) = ((k * 10 ^ n : ℤ) : ℚ) := by
      rw [hk, zpow_add₀ (by norm_num), zpow_natCast, zpow_natCast]
      push_cast
      field_simp
    rw [inContext, if_neg hzero]
    dsimp only
    rw [hn, hint, roundHalfEven_intCast, ← hint, mul_div_cancel_right₀ _ hp]

/-- A sum of values of the grid that are not negative is exact when its digits fit. -/
theorem sumInContext_of_mem {prec s : ℕ} {qs : List ℚ} (hgrid : ∀ q ∈ qs, q ∈ grid s)
    (hnonneg : ∀ q ∈ qs, 0 ≤ q) (hfits : qs.sum * 10 ^ s < 10 ^ prec) :
    sumInContext prec qs = qs.sum := by
  -- every partial sum is at most the whole sum
  have hfold : ∀ (rest : List ℚ) (sum : ℚ), sum ∈ grid s → 0 ≤ sum →
      (∀ q ∈ rest, q ∈ grid s) → (∀ q ∈ rest, 0 ≤ q) → (sum + rest.sum) * 10 ^ s < 10 ^ prec →
      rest.foldl (fun sum q => inContext prec (sum + q)) sum = sum + rest.sum := by
    intro rest
    induction rest with
    | nil =>
      intro sum _ _ _ _ _
      simp
    | cons q rest ih =>
      intro sum hsum hpos hgrid hnonneg hroom
      have hq : 0 ≤ q := hnonneg q List.mem_cons_self
      have hmem : sum + q ∈ grid s := add_mem hsum (hgrid q List.mem_cons_self)
      have hrest : ∀ x ∈ rest, 0 ≤ x := fun x hx => hnonneg x (List.mem_cons_of_mem _ hx)
      have hle : sum + q ≤ sum + (q :: rest).sum := by
        rw [List.sum_cons]
        have := List.sum_nonneg hrest
        linarith
      have hexact : inContext prec (sum + q) = sum + q := by
        apply inContext_of_mem hmem
        rw [abs_of_nonneg (add_nonneg hpos hq)]
        exact lt_of_le_of_lt (mul_le_mul_of_nonneg_right hle (by positivity)) hroom
      rw [List.foldl_cons, hexact, List.sum_cons, ← add_assoc]
      apply ih (sum + q) hmem (add_nonneg hpos hq)
      · exact fun x hx => hgrid x (List.mem_cons_of_mem _ hx)
      · exact hrest
      · rw [add_assoc, ← List.sum_cons]
        exact hroom
  have h := hfold qs 0 (zero_mem _) le_rfl hgrid hnonneg (by rwa [zero_add])
  rw [zero_add] at h
  exact h

/-! ## Comparing a rounded result with a value of the grid -/

theorem le_roundHalfEven {q : ℚ} {n : ℤ} (h : (n : ℚ) ≤ q) : n ≤ roundHalfEven q := by
  have hfloor : n ≤ ⌊q⌋ := Int.le_floor.mpr h
  unfold roundHalfEven
  dsimp only
  split
  · exact hfloor
  · split
    · omega
    · split <;> omega

theorem roundHalfEven_lt {q : ℚ} {n : ℤ} (h : q < n - 1 / 2) : roundHalfEven q < n := by
  have hlt : ⌊q⌋ < n := by
    rw [Int.floor_lt]
    linarith
  unfold roundHalfEven
  dsimp only
  split
  · exact hlt
  · rename_i hfrac
    -- the next integer above is still below `n`
    have hnext : ⌊q⌋ + 1 < n := by
      have : ((⌊q⌋ + 1 : ℤ) : ℚ) < n := by
        push_cast
        linarith
      exact_mod_cast this
    split
    · exact hnext
    · split
      · exact hlt
      · exact hnext

/-- A tie goes to the even integer, so that this one takes all from a half below on. -/
theorem le_roundHalfEven_iff {q : ℚ} {n : ℤ} (hn : n % 2 = 0) :
    n ≤ roundHalfEven q ↔ (n : ℚ) - 1 / 2 ≤ q := by
  refine ⟨fun h => ?_, fun h => ?_⟩
  · by_contra hlt
    exact absurd (roundHalfEven_lt (lt_of_not_ge hlt)) (by omega)
  · have hfloor : n ≤ ⌊q⌋ + 1 := by
      have : (n : ℚ) < (⌊q⌋ + 1 : ℤ) + 1 := by
        push_cast
        linarith [Int.lt_floor_add_one q]
      exact Int.lt_add_one_iff.mp (by exact_mod_cast this)
    unfold roundHalfEven
    dsimp only
    split
    · rename_i hfrac
      -- less than a half above its floor, the value has none but this integer at hand
      have : (n : ℚ) < (⌊q⌋ : ℤ) + 1 := by linarith
      exact Int.lt_add_one_iff.mp (by exact_mod_cast this)
    · split
      · exact hfloor
      · split <;> omega

/-- What a context with room for the decimals of the grid keeps of a positive value. -/
theorem inContext_eq_of_lt {prec s m : ℕ} {x g : ℚ} (hx : 0 < x) (hlt : x < 10 ^ m)
    (hroom : m + s + 1 ≤ prec) (hg : g ∈ grid s) :
    ∃ (k : ℕ) (n : ℤ), s + 1 ≤ k ∧ g * 10 ^ k = n ∧
      inContext prec x = roundHalfEven (x * 10 ^ k) / 10 ^ k := by
  have hexp : leadingExponent x < m := leadingExponent_lt (by rwa [abs_of_pos hx])
  obtain ⟨k, hk⟩ : ∃ k : ℕ, (prec : ℤ) - 1 - leadingExponent x = k :=
    ⟨((prec : ℤ) - 1 - leadingExponent x).toNat, by omega⟩
  have hsk : s + 1 ≤ k := by omega
  obtain ⟨j, rfl⟩ : ∃ j, k = s + j := ⟨k - s, by omega⟩
  obtain ⟨i, hi⟩ := mem_grid.mp hg
  refine ⟨s + j, i * 10 ^ j, hsk, ?_, ?_⟩
  · rw [hi, pow_add]
    push_cast
    field_simp
  · rw [inContext, if_neg hx.ne']
    dsimp only
    rw [hk, zpow_natCast]

section

variable {prec s m : ℕ} {x g : ℚ}

theorem le_inContext (hx : 0 < x) (hlt : x < 10 ^ m) (hroom : m + s + 1 ≤ prec) (hg : g ∈ grid s)
    (hle : g ≤ x) : g ≤ inContext prec x := by
  obtain ⟨k, n, -, hn, heq⟩ := inContext_eq_of_lt hx hlt hroom hg
  have hp : (0 : ℚ) < 10 ^ k := by positivity
  have hround : n ≤ roundHalfEven (x * 10 ^ k) := by
    apply le_roundHalfEven
    rw [← hn]
    exact mul_le_mul_of_nonneg_right hle hp.le
  rw [heq, le_div_iff₀ hp, hn]
  exact_mod_cast hround

theorem inContext_lt (hx : 0 < x) (hlt : x < 10 ^ m) (hroom : m + s + 1 ≤ prec) (hg : g ∈ grid s)
    (hle : x + 1 / (2 * 10 ^ s) ≤ g) : inContext prec x < g := by
  obtain ⟨k, n, hk, hn, heq⟩ := inContext_eq_of_lt hx hlt hroom hg
  have hp : (0 : ℚ) < 10 ^ k := by positivity
  have hunits : (5 : ℚ) ≤ 1 / (2 * 10 ^ s) * 10 ^ k := by
    have hpow : (10 : ℚ) ^ (s + 1) ≤ 10 ^ k := pow_le_pow_right₀ (by norm_num) hk
    have hs : (0 : ℚ) < 10 ^ s := by positivity
    rw [div_mul_eq_mul_div, one_mul, le_div_iff₀ (by positivity)]
    rw [pow_succ] at hpow
    linarith
  have hround : roundHalfEven (x * 10 ^ k) < n := by
    apply roundHalfEven_lt
    have hscaled : (x + 1 / (2 * 10 ^ s)) * 10 ^ k ≤ n := by
      rw [← hn]
      exact mul_le_mul_of_nonneg_right hle hp.le
    rw [add_mul] at hscaled
    linarith
  rw [heq, div_lt_iff₀ hp, hn]
  exact_mod_cast hround

end

end SaccoPlatform.Lib
