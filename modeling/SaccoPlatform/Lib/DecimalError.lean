import SaccoPlatform.Lib.DecimalContext

/-!
# How far rounding goes

Bounds on what a column or a decimal context takes away from a value, and the values they leave as
they are.
-/

namespace SaccoPlatform.Lib

/-! ## Columns -/

/-- Rounding keeps the order. -/
theorem roundAt_mono {s : ℕ} {a b : ℚ} (h : a ≤ b) : roundAt s a ≤ roundAt s b := by
  have hp : (0 : ℚ) < 10 ^ s := by positivity
  have hcore : ∀ x y : ℚ, 0 ≤ x → x ≤ y → roundAt s x ≤ roundAt s y := by
    intro x y hx hxy
    rw [roundAt, roundAt, if_pos hx, if_pos (hx.trans hxy), div_le_div_iff_of_pos_right hp]
    have hmul : x * 10 ^ s ≤ y * 10 ^ s := mul_le_mul_of_nonneg_right hxy hp.le
    have hfloor : ⌊x * 10 ^ s + 1 / 2⌋ ≤ ⌊y * 10 ^ s + 1 / 2⌋ := Int.floor_le_floor (by linarith)
    exact_mod_cast hfloor
  rcases le_total 0 a with ha | ha
  · exact hcore a b ha h
  · rcases le_total 0 b with hb | hb
    · have hneg : 0 ≤ roundAt s (-a) := roundAt_nonneg (by linarith)
      have hpos : 0 ≤ roundAt s b := roundAt_nonneg hb
      rw [roundAt_neg] at hneg
      linarith
    · have hflip := hcore (-b) (-a) (by linarith) (by linarith)
      rw [roundAt_neg, roundAt_neg] at hflip
      linarith

/-- A value of the grid is reached from half a unit below on. -/
theorem le_roundAt_iff {s : ℕ} {y q : ℚ} (hy : y ∈ grid s) (hq : 0 ≤ q) :
    y ≤ roundAt s q ↔ y - 1 / (2 * 10 ^ s) ≤ q := by
  obtain ⟨k, rfl⟩ := mem_grid.mp hy
  have hp : (0 : ℚ) < 10 ^ s := by positivity
  have hhalf : (1 : ℚ) / (2 * 10 ^ s) = 1 / 2 / 10 ^ s := by rw [div_div]
  rw [roundAt, if_pos hq, div_le_div_iff_of_pos_right hp, Int.cast_le, Int.le_floor, hhalf, ← sub_div,
    div_le_iff₀ hp]
  constructor
  · intro h
    linarith
  · intro h
    linarith

/-- What rounds to a value of the grid lies within half a unit of it. -/
theorem roundAt_eq_iff {s : ℕ} {y q : ℚ} (hy : y ∈ grid s) (hq : 0 ≤ q) :
    roundAt s q = y ↔ y - 1 / (2 * 10 ^ s) ≤ q ∧ q < y + 1 / (2 * 10 ^ s) := by
  have hnext : y + 1 / 10 ^ s ∈ grid s := add_mem hy (mem_grid.mpr ⟨1, by norm_num⟩)
  have hhalf : y + 1 / 10 ^ s - 1 / (2 * 10 ^ s) = y + 1 / (2 * 10 ^ s) := by
    rw [one_div, one_div, mul_inv]
    ring
  have hlow := le_roundAt_iff hy hq
  have hhigh := le_roundAt_iff hnext hq
  rw [hhalf] at hhigh
  have hp : (0 : ℚ) < 1 / 10 ^ s := by positivity
  constructor
  · intro heq
    refine ⟨hlow.mp heq.ge, lt_of_not_ge fun hge => ?_⟩
    linarith [hhigh.mpr hge]
  · rintro ⟨hle, hlt⟩
    refine le_antisymm (le_of_not_gt fun hgt => ?_) (hlow.mpr hle)
    exact absurd (hhigh.mp (add_unit_le_of_lt hy (roundAt_mem_grid s q) hgt)) (not_le.mpr hlt)

/-- Rounding passes over a part that is on the grid. -/
theorem roundAt_add_mem {s : ℕ} {m a : ℚ} (hm : m ∈ grid s) (hm0 : 0 ≤ m) (ha : 0 ≤ a) :
    roundAt s (m + a) = m + roundAt s a := by
  obtain ⟨k, rfl⟩ := mem_grid.mp hm
  have hp : (0 : ℚ) < 10 ^ s := by positivity
  rw [roundAt, roundAt, if_pos (add_nonneg hm0 ha), if_pos ha, add_mul, div_mul_cancel₀ _ hp.ne',
    add_assoc, Int.floor_intCast_add]
  push_cast
  ring

/-- Rounding moves a value by at most half a unit. -/
theorem abs_roundAt_sub_le (s : ℕ) (q : ℚ) : |roundAt s q - q| ≤ 1 / (2 * 10 ^ s) := by
  have hcore : ∀ x : ℚ, 0 ≤ x → |roundAt s x - x| ≤ 1 / (2 * 10 ^ s) := by
    intro x hx
    have hp : (0 : ℚ) < 10 ^ s := by positivity
    have hlow := Int.floor_le (x * 10 ^ s + 1 / 2)
    have hhigh := lt_roundAt_add_half (s := s) hx
    have hup : roundAt s x ≤ x + 1 / (2 * 10 ^ s) := by
      rw [roundAt, if_pos hx, div_le_iff₀ hp, add_mul]
      have hhalf : (1 : ℚ) / (2 * 10 ^ s) * 10 ^ s = 1 / 2 := by field_simp
      linarith
    rw [abs_le]
    constructor <;> linarith
  rcases le_total 0 q with h | h
  · exact hcore q h
  · have hneg := hcore (-q) (by linarith)
    rwa [roundAt_neg, ← abs_neg, show -(-roundAt s q - -q) = roundAt s q - q by ring] at hneg

/-- Rounding at most doubles: what it adds half a unit to is at least that. -/
theorem roundAt_le_two_mul (s : ℕ) {q : ℚ} (hq : 0 ≤ q) : roundAt s q ≤ 2 * q := by
  by_cases hzero : roundAt s q = 0
  · rw [hzero]
    positivity
  · have hp : (0 : ℚ) < 10 ^ s := by positivity
    have hhalf : 1 / 2 ≤ q * 10 ^ s := by
      rw [roundAt_eq_zero, abs_of_nonneg hq] at hzero
      exact not_lt.mp hzero
    have hunit : 1 / (2 * 10 ^ s) ≤ q := by
      rw [div_le_iff₀ (by positivity)]
      linarith
    have hclose := (abs_le.mp (abs_roundAt_sub_le s q)).2
    linarith

/-- The value lies within `err` of the middle between two values with `s` decimals. -/
def NearHalfway (s : ℕ) (err q : ℚ) : Prop := ∃ k : ℤ, |q - (k + 1 / 2) / 10 ^ s| ≤ err

/-- Between two values that round differently there is a middle. -/
theorem exists_middle {s : ℕ} {a b : ℚ} (hlt : roundAt s a < roundAt s b) :
    ∃ k : ℤ, a ≤ (k + 1 / 2) / 10 ^ s ∧ (k + 1 / 2) / 10 ^ s ≤ b := by
  have hp : (0 : ℚ) < 10 ^ s := by positivity
  obtain ⟨k, hk⟩ := mem_grid.mp (roundAt_mem_grid s b)
  have hstep := add_unit_le_of_lt (roundAt_mem_grid s a) (roundAt_mem_grid s b) hlt
  have ha := (abs_le.mp (abs_roundAt_sub_le s a)).1
  have hb := (abs_le.mp (abs_roundAt_sub_le s b)).2
  have hmiddle : (((k - 1 : ℤ) : ℚ) + 1 / 2) / 10 ^ s = roundAt s b - 1 / (2 * 10 ^ s) := by
    rw [hk]
    push_cast
    field_simp
    ring
  have hunit : (1 : ℚ) / 10 ^ s = 1 / (2 * 10 ^ s) + 1 / (2 * 10 ^ s) := by
    field_simp
    norm_num
  exact ⟨k - 1, by linarith, by linarith⟩

/-- Away from the middles a small error does not show. -/
theorem roundAt_eq_of_close {s : ℕ} {a b err : ℚ} (hclose : |a - b| ≤ err)
    (haway : ¬ NearHalfway s err b) : roundAt s a = roundAt s b := by
  obtain ⟨hlow, hhigh⟩ := abs_le.mp hclose
  rcases lt_trichotomy (roundAt s a) (roundAt s b) with hlt | heq | hlt
  · obtain ⟨k, hak, hkb⟩ := exists_middle hlt
    exact absurd ⟨k, abs_le.mpr ⟨by linarith, by linarith⟩⟩ haway
  · exact heq
  · obtain ⟨k, hbk, hka⟩ := exists_middle hlt
    exact absurd ⟨k, abs_le.mpr ⟨by linarith, by linarith⟩⟩ haway

/-! ## Contexts -/

theorem lt_pow_leadingExponent (q : ℚ) :
    |q| < (10 : ℚ) ^ (leadingExponent q + 1) := by
  have hnum : (q.num.natAbs : ℚ) < (10 : ℚ) ^ (Nat.log 10 q.num.natAbs + 1) := by
    exact_mod_cast Nat.lt_pow_succ_log_self (by norm_num) q.num.natAbs
  have hden : (10 : ℚ) ^ Nat.log 10 q.den ≤ (q.den : ℚ) := by
    exact_mod_cast Nat.pow_log_le_self 10 q.den_nz
  have habs : |q| = (q.num.natAbs : ℚ) / q.den := by
    conv_lhs => rw [← Rat.num_div_den q]
    rw [abs_div, Nat.abs_cast, Nat.cast_natAbs, Int.cast_abs]
  have hbound : |q| < (10 : ℚ) ^ ((Nat.log 10 q.num.natAbs : ℤ) - (Nat.log 10 q.den : ℤ) + 1) := by
    have hexp : (10 : ℚ) ^ ((Nat.log 10 q.num.natAbs : ℤ) - (Nat.log 10 q.den : ℤ) + 1)
        = (10 : ℚ) ^ (Nat.log 10 q.num.natAbs + 1) / (10 : ℚ) ^ Nat.log 10 q.den := by
      rw [show (Nat.log 10 q.num.natAbs : ℤ) - (Nat.log 10 q.den : ℤ) + 1
        = ((Nat.log 10 q.num.natAbs + 1 : ℕ) : ℤ) - (Nat.log 10 q.den : ℕ) by push_cast; ring,
        zpow_sub₀ (by norm_num), zpow_natCast, zpow_natCast]
    rw [hexp, habs]
    exact div_lt_div₀ hnum hden (by positivity) (by positivity)
  unfold leadingExponent
  dsimp only
  split
  · exact hbound
  · next hlt =>
    rw [sub_add_cancel]
    exact not_le.mp hlt

theorem abs_roundHalfEven_sub (q : ℚ) : |(roundHalfEven q : ℚ) - q| ≤ 1 / 2 := by
  have hlow := Int.floor_le q
  have hhigh := Int.lt_floor_add_one q
  unfold roundHalfEven
  dsimp only
  rw [abs_le]
  split
  · constructor <;> linarith
  · split
    · push_cast
      constructor <;> linarith
    · split
      · constructor <;> linarith
      · push_cast
        constructor <;> linarith

/-- What a context of `prec` digits takes away is small beside the value. -/
theorem abs_inContext_sub_le (prec : ℕ) (q : ℚ) :
    |inContext prec q - q| ≤ |q| * (5 / 10 ^ prec) := by
  by_cases hq : q = 0
  · simp [inContext, hq]
  · have hp : (0 : ℚ) < (10 : ℚ) ^ ((prec : ℤ) - 1 - leadingExponent q) :=
      zpow_pos (by norm_num) _
    rw [inContext, if_neg hq]
    dsimp only
    rw [show ∀ a : ℚ, a / (10 : ℚ) ^ ((prec : ℤ) - 1 - leadingExponent q) - q
      = (a - q * (10 : ℚ) ^ ((prec : ℤ) - 1 - leadingExponent q))
        / (10 : ℚ) ^ ((prec : ℤ) - 1 - leadingExponent q) from fun a => by field_simp,
      abs_div, abs_of_pos hp, div_le_iff₀ hp]
    refine (abs_roundHalfEven_sub _).trans ?_
    have hlead := pow_leadingExponent_le hq
    have hsplit : (10 : ℚ) ^ ((prec : ℤ) - 1 - leadingExponent q)
        = 10 ^ prec / 10 / 10 ^ leadingExponent q := by
      rw [zpow_sub₀ (by norm_num), zpow_sub₀ (by norm_num), zpow_natCast, zpow_one]
    rw [hsplit]
    have he : (0 : ℚ) < 10 ^ leadingExponent q := zpow_pos (by norm_num) _
    have hprec : (0 : ℚ) < 10 ^ prec := by positivity
    rw [show |q| * (5 / 10 ^ prec) * (10 ^ prec / 10 / 10 ^ leadingExponent q)
      = |q| / 10 ^ leadingExponent q * (1 / 2) by field_simp; norm_num]
    have hone : 1 ≤ |q| / 10 ^ leadingExponent q := (one_le_div he).mpr hlead
    linarith

/-- A value that the context keeps as it is has so many decimals that it fills no more than `prec`
digits, and at least those that its size leaves room for. -/
theorem exists_grid_of_inContext {prec m s : ℕ} {q : ℚ} (hq : 0 < q) (hkept : inContext prec q = q)
    (hlt : q < 10 ^ m) (hroom : m + s ≤ prec) :
    ∃ s', s ≤ s' ∧ q ∈ grid s' ∧ q * 10 ^ s' < 10 ^ prec := by
  have hexp : leadingExponent q < m := by
    have hle := pow_leadingExponent_le hq.ne'
    rw [abs_of_pos hq] at hle
    have hpow : (10 : ℚ) ^ leadingExponent q < (10 : ℚ) ^ (m : ℤ) := by
      rw [zpow_natCast]
      exact lt_of_le_of_lt hle hlt
    exact (zpow_lt_zpow_iff_right₀ (by norm_num)).mp hpow
  obtain ⟨k, hk⟩ : ∃ k : ℕ, (prec : ℤ) - 1 - leadingExponent q = k :=
    ⟨((prec : ℤ) - 1 - leadingExponent q).toNat, by omega⟩
  refine ⟨k, by omega, ?_, ?_⟩
  · rw [inContext, if_neg hq.ne'] at hkept
    dsimp only at hkept
    rw [hk, zpow_natCast] at hkept
    exact mem_grid.mpr ⟨_, hkept.symm⟩
  · have hhigh := lt_pow_leadingExponent q
    rw [abs_of_pos hq] at hhigh
    have hp : (0 : ℚ) < 10 ^ k := by positivity
    calc q * 10 ^ k < (10 : ℚ) ^ (leadingExponent q + 1) * 10 ^ k := by gcongr
      _ = 10 ^ prec := by
        rw [← zpow_natCast, ← zpow_natCast, ← zpow_add₀ (by norm_num)]
        congr 1
        omega

section

variable {prec : ℕ} {a b q : ℚ}

theorem abs_inContext_sub_le_half (hprec : 1 ≤ prec) (q : ℚ) : |inContext prec q - q| ≤ |q| / 2 := by
  refine (abs_inContext_sub_le prec q).trans ?_
  have hpow : (10 : ℚ) ^ 1 ≤ 10 ^ prec := pow_le_pow_right₀ (by norm_num) hprec
  have hsmall : (5 : ℚ) / 10 ^ prec ≤ 1 / 2 := by
    rw [div_le_div_iff₀ (by positivity) (by norm_num)]
    linarith
  have := mul_le_mul_of_nonneg_left hsmall (abs_nonneg q)
  linarith

theorem inContext_nonneg (hprec : 1 ≤ prec) (hq : 0 ≤ q) : 0 ≤ inContext prec q := by
  have h := abs_inContext_sub_le_half hprec q
  rw [abs_of_nonneg hq, abs_le] at h
  linarith

theorem sumInContext_nonneg (hprec : 1 ≤ prec) {qs : List ℚ} (h : ∀ q ∈ qs, 0 ≤ q) :
    0 ≤ sumInContext prec qs := by
  have hfold : ∀ (rest : List ℚ) (sum : ℚ), 0 ≤ sum → (∀ q ∈ rest, 0 ≤ q) →
      0 ≤ rest.foldl (fun sum q => inContext prec (sum + q)) sum := by
    intro rest
    induction rest with
    | nil => exact fun sum hsum _ => hsum
    | cons q rest ih =>
      intro sum hsum hrest
      rw [List.forall_mem_cons] at hrest
      exact ih _ (inContext_nonneg hprec (add_nonneg hsum hrest.1)) hrest.2
  exact hfold qs 0 le_rfl h

theorem inContext_pos (hprec : 1 ≤ prec) (hq : 0 < q) : 0 < inContext prec q := by
  have h := abs_inContext_sub_le_half hprec q
  rw [abs_of_pos hq, abs_le] at h
  linarith

theorem inContext_lt_zero (hprec : 1 ≤ prec) (hq : q < 0) : inContext prec q < 0 := by
  have h := abs_inContext_sub_le_half hprec q
  rw [abs_of_neg hq, abs_le] at h
  linarith

theorem roundHalfEven_mono (h : a ≤ b) : roundHalfEven a ≤ roundHalfEven b := by
  have hfloor : ⌊a⌋ ≤ ⌊b⌋ := Int.floor_le_floor h
  rcases hfloor.lt_or_eq with hlt | heq
  · -- whatever is added to the smaller floor, the larger one is not passed
    have ha : roundHalfEven a ≤ ⌊a⌋ + 1 := by
      unfold roundHalfEven
      dsimp only
      split
      · omega
      · split
        · omega
        · split <;> omega
    have hb : ⌊b⌋ ≤ roundHalfEven b := le_roundHalfEven (Int.floor_le b)
    omega
  · unfold roundHalfEven
    dsimp only
    rw [← heq]
    split
    · split
      · omega
      · split
        · omega
        · split <;> omega
    · next hna =>
      have hnb : ¬ b - ⌊a⌋ < 1 / 2 := by linarith
      rw [if_neg hnb]
      split
      · next hup =>
        have hupb : 1 / 2 < b - ⌊a⌋ := by linarith
        rw [if_pos hupb]
      · split <;> split <;> omega

/-- Rounding to the digits of the context does not pass the next power of ten. -/
theorem inContext_le_pow (hq : 0 < q) : inContext prec q ≤ (10 : ℚ) ^ (leadingExponent q + 1) := by
  have hlt : q < (10 : ℚ) ^ (leadingExponent q + 1) := by
    have := lt_pow_leadingExponent q
    rwa [abs_of_pos hq] at this
  have hscale : (0 : ℚ) < (10 : ℚ) ^ ((prec : ℤ) - 1 - leadingExponent q) := zpow_pos (by norm_num) _
  have hsum : leadingExponent q + 1 + ((prec : ℤ) - 1 - leadingExponent q) = prec := by ring
  have hpow : ((10 ^ prec : ℤ) : ℚ) = (10 : ℚ) ^ (leadingExponent q + 1) *
      (10 : ℚ) ^ ((prec : ℤ) - 1 - leadingExponent q) := by
    rw [← zpow_add₀ (by norm_num), hsum, zpow_natCast]
    push_cast
    rfl
  have hround : roundHalfEven (q * (10 : ℚ) ^ ((prec : ℤ) - 1 - leadingExponent q)) ≤
      roundHalfEven ((10 ^ prec : ℤ) : ℚ) := by
    apply roundHalfEven_mono
    rw [hpow]
    exact mul_le_mul_of_nonneg_right hlt.le hscale.le
  rw [roundHalfEven_intCast] at hround
  rw [inContext, if_neg hq.ne']
  dsimp only
  rw [div_le_iff₀ hscale, ← hpow]
  exact_mod_cast hround

/-- Nor does it fall below the leading digit. -/
theorem pow_le_inContext (hprec : 1 ≤ prec) (hq : 0 < q) :
    (10 : ℚ) ^ leadingExponent q ≤ inContext prec q := by
  have hle : (10 : ℚ) ^ leadingExponent q ≤ q := by
    have := pow_leadingExponent_le hq.ne'
    rwa [abs_of_pos hq] at this
  have hscale : (0 : ℚ) < (10 : ℚ) ^ ((prec : ℤ) - 1 - leadingExponent q) := zpow_pos (by norm_num) _
  have hsum : leadingExponent q + ((prec : ℤ) - 1 - leadingExponent q) = (prec - 1 : ℕ) := by
    push_cast [hprec]
    ring
  have hpow : ((10 ^ (prec - 1) : ℤ) : ℚ) = (10 : ℚ) ^ leadingExponent q *
      (10 : ℚ) ^ ((prec : ℤ) - 1 - leadingExponent q) := by
    rw [← zpow_add₀ (by norm_num), hsum, zpow_natCast]
    push_cast
    rfl
  have hround : roundHalfEven ((10 ^ (prec - 1) : ℤ) : ℚ) ≤
      roundHalfEven (q * (10 : ℚ) ^ ((prec : ℤ) - 1 - leadingExponent q)) := by
    apply roundHalfEven_mono
    rw [hpow]
    exact mul_le_mul_of_nonneg_right hle hscale.le
  rw [roundHalfEven_intCast] at hround
  rw [inContext, if_neg hq.ne']
  dsimp only
  rw [le_div_iff₀ hscale, ← hpow]
  exact_mod_cast hround

theorem inContext_mono_of_nonneg (hprec : 1 ≤ prec) (ha : 0 ≤ a) (h : a ≤ b) :
    inContext prec a ≤ inContext prec b := by
  rcases ha.lt_or_eq with hapos | rfl
  · have hbpos : 0 < b := lt_of_lt_of_le hapos h
    have hae := pow_leadingExponent_le hapos.ne'
    have hbe := lt_pow_leadingExponent b
    rw [abs_of_pos hapos] at hae
    rw [abs_of_pos hbpos] at hbe
    have hexp : leadingExponent a < leadingExponent b + 1 := by
      have hlt : (10 : ℚ) ^ leadingExponent a < (10 : ℚ) ^ (leadingExponent b + 1) := by linarith
      exact (zpow_lt_zpow_iff_right₀ (by norm_num)).mp hlt
    rcases (Int.lt_add_one_iff.mp hexp).lt_or_eq with hlt | heq
    · -- a power of ten lies between them
      calc inContext prec a ≤ (10 : ℚ) ^ (leadingExponent a + 1) := inContext_le_pow hapos
        _ ≤ (10 : ℚ) ^ leadingExponent b := zpow_le_zpow_right₀ (by norm_num) hlt
        _ ≤ inContext prec b := pow_le_inContext hprec hbpos
    · rw [inContext, inContext, if_neg hapos.ne', if_neg hbpos.ne']
      dsimp only
      rw [heq]
      have hp : (0 : ℚ) < (10 : ℚ) ^ ((prec : ℤ) - 1 - leadingExponent b) := zpow_pos (by norm_num) _
      rw [div_le_div_iff_of_pos_right hp]
      exact_mod_cast roundHalfEven_mono (mul_le_mul_of_nonneg_right h hp.le)
  · have hzero : inContext prec 0 = 0 := if_pos rfl
    rw [hzero]
    exact inContext_nonneg hprec h

theorem roundHalfEven_neg (q : ℚ) : roundHalfEven (-q) = -roundHalfEven q := by
  have hle := Int.floor_le q
  have hlt := Int.lt_floor_add_one q
  rcases hle.lt_or_eq with hfrac | hint
  · have hfloor : ⌊-q⌋ = -⌊q⌋ - 1 := by
      rw [Int.floor_eq_iff]
      push_cast
      constructor <;> linarith
    have hrest : -q - ((-⌊q⌋ - 1 : ℤ) : ℚ) = 1 - (q - ⌊q⌋) := by
      push_cast
      ring
    unfold roundHalfEven
    dsimp only
    rw [hfloor, hrest]
    split_ifs <;> first | omega | linarith
  · rw [← hint, ← Int.cast_neg, roundHalfEven_intCast, roundHalfEven_intCast]

theorem inContext_neg (prec : ℕ) (q : ℚ) : inContext prec (-q) = -inContext prec q := by
  have hlead : leadingExponent (-q) = leadingExponent q := by
    simp [leadingExponent]
  unfold inContext
  dsimp only
  rw [hlead, neg_mul, roundHalfEven_neg]
  split_ifs with hneg hq hq
  · simp
  · exact absurd (neg_eq_zero.mp hneg) hq
  · exact absurd (neg_eq_zero.mpr hq) hneg
  · push_cast
    ring

/-- A decimal context keeps the order. -/
theorem inContext_mono (hprec : 1 ≤ prec) (h : a ≤ b) : inContext prec a ≤ inContext prec b := by
  rcases le_total 0 a with ha | ha
  · exact inContext_mono_of_nonneg hprec ha h
  · have hna : inContext prec a ≤ 0 := by
      have hflip := inContext_nonneg hprec (neg_nonneg.mpr ha)
      rw [inContext_neg] at hflip
      linarith
    rcases le_total 0 b with hb | hb
    · exact hna.trans (inContext_nonneg hprec hb)
    · have hflip := inContext_mono_of_nonneg hprec (neg_nonneg.mpr hb) (neg_le_neg h)
      rw [inContext_neg, inContext_neg] at hflip
      linarith

theorem leadingExponent_eq {e : ℤ} (hle : (10 : ℚ) ^ e ≤ q) (hlt : q < (10 : ℚ) ^ (e + 1)) :
    leadingExponent q = e := by
  have hq : 0 < q := lt_of_lt_of_le (zpow_pos (by norm_num) e) hle
  have hlead := pow_leadingExponent_le hq.ne'
  have hlead' := lt_pow_leadingExponent q
  rw [abs_of_pos hq] at hlead hlead'
  have hup : leadingExponent q < e + 1 :=
    (zpow_lt_zpow_iff_right₀ (by norm_num)).mp (lt_of_le_of_lt hlead hlt)
  have hdown : e < leadingExponent q + 1 :=
    (zpow_lt_zpow_iff_right₀ (by norm_num)).mp (lt_of_le_of_lt hle hlead')
  omega

/-- A value that is whole in units of its last digit is kept. -/
theorem inContext_of_whole {m : ℤ} (hq : 0 < q)
    (hwhole : q * (10 : ℚ) ^ ((prec : ℤ) - 1 - leadingExponent q) = m) : inContext prec q = q := by
  have hscale : (10 : ℚ) ^ ((prec : ℤ) - 1 - leadingExponent q) ≠ 0 := zpow_ne_zero _ (by norm_num)
  rw [inContext, if_neg hq.ne']
  dsimp only
  rw [hwhole, roundHalfEven_intCast, ← hwhole, mul_div_cancel_right₀ _ hscale]

/-- What a decimal context has rounded it keeps. -/
theorem inContext_inContext (hprec : 1 ≤ prec) (hq : 0 ≤ q) :
    inContext prec (inContext prec q) = inContext prec q := by
  rcases hq.lt_or_eq with hpos | rfl
  · have hkeptPos : 0 < inContext prec q := inContext_pos hprec hpos
    have hup : inContext prec q ≤ (10 : ℚ) ^ (leadingExponent q + 1) := inContext_le_pow hpos
    rcases hup.lt_or_eq with hlt | heq
    · apply inContext_of_whole hkeptPos
      rw [leadingExponent_eq (pow_le_inContext hprec hpos) hlt, inContext, if_neg hpos.ne']
      exact div_mul_cancel₀ _ (zpow_ne_zero _ (by norm_num))
    · -- rounded up to a power of ten
      have hlead : leadingExponent (inContext prec q) = leadingExponent q + 1 := by
        apply leadingExponent_eq heq.ge
        rw [heq]
        exact zpow_lt_zpow_right₀ (by norm_num) (by omega)
      have hsum : leadingExponent q + 1 + ((prec : ℤ) - 1 - (leadingExponent q + 1)) =
          (prec - 1 : ℕ) := by
        push_cast [hprec]
        ring
      apply inContext_of_whole (m := 10 ^ (prec - 1)) hkeptPos
      rw [hlead, heq, ← zpow_add₀ (by norm_num), hsum, zpow_natCast]
      push_cast
      rfl
  · have hzero : inContext prec 0 = 0 := if_pos rfl
    rw [hzero, hzero]

/-- A decimal context does not add decimals. -/
theorem inContext_mem_grid {s : ℕ} (hq : q ∈ grid s) : inContext prec q ∈ grid s := by
  by_cases hfits : |q| * 10 ^ s < 10 ^ prec
  · rw [inContext_of_mem hq hfits]
    exact hq
  · by_cases hzero : q = 0
    · rw [inContext, if_pos hzero]
      exact zero_mem _
    · -- the last digit that is kept stands no lower than the grid
      have hexp : (prec : ℤ) ≤ leadingExponent q + s := by
        by_contra hlt
        apply hfits
        have hle : leadingExponent q + 1 + (s : ℤ) ≤ prec := by omega
        calc |q| * 10 ^ s < (10 : ℚ) ^ (leadingExponent q + 1) * 10 ^ s :=
              mul_lt_mul_of_pos_right (lt_pow_leadingExponent q) (by positivity)
          _ = (10 : ℚ) ^ (leadingExponent q + 1 + (s : ℤ)) := by
              rw [← zpow_natCast, ← zpow_add₀ (by norm_num)]
          _ ≤ (10 : ℚ) ^ (prec : ℤ) := zpow_le_zpow_right₀ (by norm_num) hle
          _ = 10 ^ prec := zpow_natCast _ _
      obtain ⟨k, hk⟩ : ∃ k : ℕ, (s : ℤ) - ((prec : ℤ) - 1 - leadingExponent q) = k :=
        ⟨((s : ℤ) - ((prec : ℤ) - 1 - leadingExponent q)).toNat, by omega⟩
      have hshift : (prec : ℤ) - 1 - leadingExponent q = (s : ℤ) - k := by omega
      rw [inContext, if_neg hzero]
      dsimp only
      rw [hshift]
      refine mem_grid.mpr ⟨roundHalfEven (q * (10 : ℚ) ^ ((s : ℤ) - k)) * 10 ^ k, ?_⟩
      have hk0 : (10 : ℚ) ^ k ≠ 0 := by positivity
      have hs0 : (10 : ℚ) ^ s ≠ 0 := by positivity
      generalize roundHalfEven (q * (10 : ℚ) ^ ((s : ℤ) - k)) = r
      rw [zpow_sub₀ (by norm_num), zpow_natCast, zpow_natCast]
      push_cast
      field_simp

end

/-! ## Ties -/

section

variable {prec s : ℕ} {m a q : ℚ}

theorem grid_mono {s' : ℕ} (h : s ≤ s') : grid s ≤ grid s' := by
  intro q hq
  obtain ⟨k, rfl⟩ := mem_grid.mp hq
  refine mem_grid.mpr ⟨k * 10 ^ (s' - s), ?_⟩
  have hpow : (10 : ℚ) ^ s' = 10 ^ s * 10 ^ (s' - s) := by rw [← pow_add, Nat.add_sub_cancel' h]
  rw [hpow]
  push_cast
  field_simp

/-- A tie is half a unit above a value of the grid. -/
theorem halfway_iff_mem : Halfway s q ↔ q - 1 / (2 * 10 ^ s) ∈ grid s := by
  have hp : (0 : ℚ) < 10 ^ s := by positivity
  have hscale : (q - 1 / (2 * 10 ^ s)) * 10 ^ s = q * 10 ^ s - 1 / 2 := by field_simp
  unfold Halfway
  rw [mem_grid]
  constructor
  · intro hfract
    refine ⟨⌊q * 10 ^ s⌋, ?_⟩
    rw [eq_div_iff hp.ne', hscale, ← hfract, Int.self_sub_fract]
  · rintro ⟨k, hk⟩
    rw [eq_div_iff hp.ne', hscale, sub_eq_iff_eq_add] at hk
    rw [hk, Int.fract_intCast_add, Int.fract_eq_self]
    norm_num

/-- The digits of the context leave a tie, and not because the value was rounded down to it. -/
def TipsOver (prec s : ℕ) (q : ℚ) : Prop := Halfway s (inContext prec q) ∧ q ≤ inContext prec q

instance (prec s : ℕ) (q : ℚ) : Decidable (TipsOver prec s q) := inferInstanceAs (Decidable (_ ∧ _))

/-- A value on the grid is no tie, and a context does not make it one. -/
theorem not_tipsOver_of_mem (hq : q ∈ grid s) : ¬ TipsOver prec s q :=
  fun h => not_halfway_of_mem (inContext_mem_grid hq) h.1

/-- A column takes as much off a balance as it gives to the part that was paid, unless the rest tips
over. -/
theorem roundAt_inContext_sub_iff (hprec : 1 ≤ prec) (hm : m ∈ grid s)
    (hfits : (m + 1) * 10 ^ (s + 1) < 10 ^ prec) (ha : 0 ≤ a) (hle : a ≤ m) :
    roundAt s (inContext prec (m - a)) = m - roundAt s a ↔ ¬ TipsOver prec s (m - a) := by
  have hp : (0 : ℚ) < 10 ^ s := by positivity
  have hunit : (0 : ℚ) < 1 / (2 * 10 ^ s) := by positivity
  have hhalf : (1 : ℚ) / (2 * 10 ^ s) ≤ 1 := by
    rw [div_le_one (by positivity)]
    linarith [one_le_pow₀ (n := s) (by norm_num : (1 : ℚ) ≤ 10)]
  have hd : 0 ≤ m - a := sub_nonneg.mpr hle
  have hkept : 0 ≤ inContext prec (m - a) := inContext_nonneg hprec hd
  -- the paid part is rounded half up, so the rest is within half a unit, the upper end included
  have hz : m - roundAt s a ∈ grid s := sub_mem hm (roundAt_mem_grid s a)
  obtain ⟨hlow, hhigh⟩ := (roundAt_eq_iff (roundAt_mem_grid s a) ha).mp rfl
  have hround : 0 ≤ roundAt s a := roundAt_nonneg ha
  have hmem : (1 : ℚ) / (2 * 10 ^ s) ∈ grid (s + 1) := by
    refine mem_grid.mpr ⟨5, ?_⟩
    rw [pow_succ]
    field_simp
    norm_num
  have hties : ∀ w, w ∈ grid (s + 1) → |w| ≤ m + 1 → inContext prec w = w := by
    intro w hw hle
    exact inContext_of_mem hw (lt_of_le_of_lt (mul_le_mul_of_nonneg_right hle (by positivity)) hfits)
  have hleft : m - roundAt s a - 1 / (2 * 10 ^ s) ≤ inContext prec (m - a) := by
    rcases le_or_gt (m - roundAt s a - 1 / (2 * 10 ^ s)) 0 with hneg | hpos
    · linarith
    · rw [← hties _ (sub_mem (grid_mono (Nat.le_succ s) hz) hmem) (by rw [abs_of_pos hpos]; linarith)]
      exact inContext_mono hprec (by linarith)
  have hright : inContext prec (m - a) ≤ m - roundAt s a + 1 / (2 * 10 ^ s) := by
    rw [← hties _ (add_mem (grid_mono (Nat.le_succ s) hz) hmem)
      (by rw [abs_of_nonneg (by linarith)]; linarith)]
    exact inContext_mono hprec (by linarith)
  rw [roundAt_eq_iff hz hkept]
  constructor
  · rintro ⟨-, hbelow⟩ ⟨htie, hup⟩
    -- the only tie below the upper end is the lower one
    have hstep := add_unit_le_of_lt (halfway_iff_mem.mp htie) hz (by linarith)
    have htwice : (1 : ℚ) / 10 ^ s = 1 / (2 * 10 ^ s) + 1 / (2 * 10 ^ s) := by field_simp; norm_num
    linarith
  · intro hnot
    refine ⟨hleft, lt_of_le_of_ne hright fun heq => hnot ⟨halfway_iff_mem.mpr ?_, by linarith⟩⟩
    rw [heq, add_sub_cancel_right]
    exact hz

end

end SaccoPlatform.Lib
