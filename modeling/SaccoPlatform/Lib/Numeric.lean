import Mathlib.Algebra.Order.Floor.Ring
import Mathlib.Algebra.Order.Round
import Mathlib.Data.Rat.Floor
import Mathlib.Algebra.Group.Subgroup.ZPowers.Basic
import Mathlib.Tactic.FieldSimp
import Mathlib.Tactic.Linarith
import Mathlib.Tactic.Positivity
import Mathlib.Tactic.Ring

/-!
# Fixed-point columns

`NUMERIC(p, s)` columns keep `s` decimals and fewer than `10^(p-s)` units. Writing a value
rounds it to the column's grid, half away from zero, and fails when the result does not fit.
A `Numeric p s` is a value such a column can hold: it carries both facts, so nothing off the
grid can be read back from a table.
-/

namespace SaccoPlatform.Lib

/-- The values with `s` decimals, as a subgroup of the rationals. -/
def grid (s : ℕ) : AddSubgroup ℚ := AddSubgroup.zmultiples (1 / 10 ^ s : ℚ)

theorem mem_grid {s : ℕ} {q : ℚ} : q ∈ grid s ↔ ∃ k : ℤ, q = k / 10 ^ s := by
  rw [grid, AddSubgroup.mem_zmultiples_iff]
  constructor
  · rintro ⟨k, rfl⟩
    exact ⟨k, by rw [zsmul_eq_mul]; ring⟩
  · rintro ⟨k, rfl⟩
    exact ⟨k, by rw [zsmul_eq_mul]; ring⟩

theorem min_mem_grid {s : ℕ} {a b : ℚ} (ha : a ∈ grid s) (hb : b ∈ grid s) :
    min a b ∈ grid s := by
  rcases min_choice a b with h | h <;> rw [h] <;> assumption

/-- Round to `s` decimals, half away from zero. -/
def roundAt (s : ℕ) (q : ℚ) : ℚ :=
  if 0 ≤ q then (⌊q * 10 ^ s + 1 / 2⌋ : ℚ) / 10 ^ s
  else -((⌊-q * 10 ^ s + 1 / 2⌋ : ℚ) / 10 ^ s)

theorem roundAt_mem_grid (s : ℕ) (q : ℚ) : roundAt s q ∈ grid s := by
  unfold roundAt
  split
  · exact mem_grid.mpr ⟨_, rfl⟩
  · exact neg_mem (mem_grid.mpr ⟨_, rfl⟩)

private theorem floor_int_add_half (k : ℤ) : ⌊(k : ℚ) + 1 / 2⌋ = k := by
  rw [Int.floor_eq_iff]
  constructor <;> linarith

/-- Rounding leaves the values of the grid alone. -/
theorem roundAt_of_mem {s : ℕ} {q : ℚ} (h : q ∈ grid s) : roundAt s q = q := by
  obtain ⟨k, rfl⟩ := mem_grid.mp h
  have hp : (10 : ℚ) ^ s ≠ 0 := by positivity
  unfold roundAt
  split
  · rw [div_mul_cancel₀ _ hp, floor_int_add_half]
  · have hneg : -((k : ℚ) / 10 ^ s) * 10 ^ s = ((-k : ℤ) : ℚ) := by
      push_cast
      field_simp
    rw [hneg, floor_int_add_half]
    push_cast
    ring

instance (s : ℕ) (q : ℚ) : Decidable (q ∈ grid s) :=
  decidable_of_iff (roundAt s q = q) ⟨fun h => h ▸ roundAt_mem_grid s q, roundAt_of_mem⟩

/-- The value lies exactly between two values with `s` decimals. -/
def Halfway (s : ℕ) (q : ℚ) : Prop := Int.fract (q * 10 ^ s) = 1 / 2

instance (s : ℕ) (q : ℚ) : Decidable (Halfway s q) := inferInstanceAs (Decidable (_ = _))

theorem not_halfway_of_mem {s : ℕ} {q : ℚ} (h : q ∈ grid s) : ¬ Halfway s q := by
  obtain ⟨k, rfl⟩ := mem_grid.mp h
  have hp : (10 : ℚ) ^ s ≠ 0 := by positivity
  unfold Halfway
  rw [div_mul_cancel₀ _ hp, Int.fract_intCast]
  norm_num

theorem roundAt_neg (s : ℕ) (q : ℚ) : roundAt s (-q) = -roundAt s q := by
  rcases lt_trichotomy q 0 with hneg | rfl | hpos
  · have hnot : ¬ 0 ≤ q := not_le.mpr hneg
    have hnonneg : 0 ≤ -q := by linarith
    rw [roundAt, roundAt, if_pos hnonneg, if_neg hnot, neg_neg]
  · rw [neg_zero, roundAt_of_mem (zero_mem _), neg_zero]
  · have hnot : ¬ 0 ≤ -q := by linarith
    rw [roundAt, roundAt, if_neg hnot, if_pos hpos.le, neg_neg]

/-- A value is rounded to zero when it is nearer to zero than half a unit. -/
theorem roundAt_eq_zero {s : ℕ} {q : ℚ} : roundAt s q = 0 ↔ |q| * 10 ^ s < 1 / 2 := by
  have hcore : ∀ x : ℚ, 0 ≤ x → (roundAt s x = 0 ↔ x * 10 ^ s < 1 / 2) := by
    intro x hx
    have hp : (0 : ℚ) < 10 ^ s := by positivity
    have hxp : 0 ≤ x * 10 ^ s := by positivity
    rw [roundAt, if_pos hx, div_eq_zero_iff, or_iff_left hp.ne', Int.cast_eq_zero,
      Int.floor_eq_zero_iff, Set.mem_Ico]
    constructor
    · rintro ⟨-, h⟩
      linarith
    · intro h
      exact ⟨by linarith, by linarith⟩
  rcases le_total 0 q with h | h
  · rw [abs_of_nonneg h]
    exact hcore q h
  · rw [abs_of_nonpos h, ← hcore (-q) (by linarith), roundAt_neg, neg_eq_zero]

/-- Only positive values round to positive ones. -/
theorem pos_of_roundAt_pos {s : ℕ} {q : ℚ} (h : 0 < roundAt s q) : 0 < q := by
  by_contra hq
  rw [not_lt] at hq
  rcases hq.lt_or_eq with hneg | rfl
  · have hfloor : (0 : ℤ) ≤ ⌊-q * 10 ^ s + 1 / 2⌋ := by
      apply Int.floor_nonneg.mpr
      have hp : (0 : ℚ) ≤ -q * 10 ^ s := by
        have hnq : 0 ≤ -q := by linarith
        positivity
      linarith
    rw [roundAt, if_neg (not_le.mpr hneg)] at h
    have hdiv : (0 : ℚ) ≤ (⌊-q * 10 ^ s + 1 / 2⌋ : ℚ) / 10 ^ s := by
      have hcast : (0 : ℚ) ≤ (⌊-q * 10 ^ s + 1 / 2⌋ : ℚ) := by exact_mod_cast hfloor
      positivity
    linarith
  · rw [roundAt_of_mem (zero_mem _)] at h
    exact lt_irrefl 0 h

theorem roundAt_nonneg {s : ℕ} {q : ℚ} (h : 0 ≤ q) : 0 ≤ roundAt s q := by
  by_contra hneg
  have hpos : 0 < roundAt s (-q) := by
    rw [roundAt_neg]
    linarith
  have := pos_of_roundAt_pos hpos
  linarith

/-- Rounding takes away less than half a unit. -/
theorem lt_roundAt_add_half {s : ℕ} {q : ℚ} (hq : 0 ≤ q) : q < roundAt s q + 1 / (2 * 10 ^ s) := by
  have hp : (0 : ℚ) < 10 ^ s := by positivity
  have hfloor := Int.lt_floor_add_one (q * 10 ^ s + 1 / 2)
  have hhalf : (1 : ℚ) / (2 * 10 ^ s) = 1 / 2 / 10 ^ s := by
    rw [div_div]
  rw [roundAt, if_pos hq, hhalf, ← add_div, lt_div_iff₀ hp]
  linarith

/-- Two values of the grid are a unit apart. -/
theorem add_unit_le_of_lt {s : ℕ} {a b : ℚ} (ha : a ∈ grid s) (hb : b ∈ grid s) (hlt : a < b) :
    a + 1 / 10 ^ s ≤ b := by
  obtain ⟨j, rfl⟩ := mem_grid.mp ha
  obtain ⟨k, rfl⟩ := mem_grid.mp hb
  have hp : (0 : ℚ) < 10 ^ s := by positivity
  have hjk : j + 1 ≤ k := by
    rw [div_lt_div_iff_of_pos_right hp] at hlt
    exact_mod_cast hlt
  rw [← add_div, div_le_div_iff_of_pos_right hp]
  exact_mod_cast hjk

/-- A value that a `NUMERIC(p, s)` column can hold. -/
structure Numeric (p s : ℕ) where
  val : ℚ
  onGrid : val ∈ grid s
  fits : |val| < 10 ^ (p - s)

namespace Numeric

variable {p s : ℕ}

instance : CoeOut (Numeric p s) ℚ := ⟨val⟩

@[ext] theorem ext {a b : Numeric p s} (h : a.val = b.val) : a = b := by
  cases a
  cases b
  cases h
  rfl

instance : DecidableEq (Numeric p s) := fun a b =>
  decidable_of_iff (a.val = b.val) ⟨ext, fun h => h ▸ rfl⟩

instance : Repr (Numeric p s) := ⟨fun a n => reprPrec a.val n⟩

instance : Zero (Numeric p s) := ⟨⟨0, zero_mem _, by simp⟩⟩

@[simp] theorem val_zero : (0 : Numeric p s).val = 0 := rfl

/-- The value a column holds after `q` is written to it, if it fits. -/
def ofRat? (q : ℚ) : Option (Numeric p s) :=
  if h : |roundAt s q| < 10 ^ (p - s) then some ⟨roundAt s q, roundAt_mem_grid s q, h⟩ else none

theorem val_of_ofRat? {q : ℚ} {a : Numeric p s} (h : ofRat? q = some a) :
    a.val = roundAt s q := by
  unfold ofRat? at h
  split at h
  · cases h
    rfl
  · cases h

/-- A value on the grid is stored as it is. -/
theorem val_of_ofRat?_mem {q : ℚ} {a : Numeric p s} (hq : q ∈ grid s) (h : ofRat? q = some a) :
    a.val = q := by
  rw [val_of_ofRat? h, roundAt_of_mem hq]

/-- What was read from a column can be written back unchanged. -/
@[simp] theorem ofRat?_val (a : Numeric p s) : (ofRat? a.val : Option (Numeric p s)) = some a := by
  unfold ofRat?
  have hr : roundAt s a.val = a.val := roundAt_of_mem a.onGrid
  rw [dif_pos (by rw [hr]; exact a.fits)]
  congr 1
  exact ext hr

end Numeric

end SaccoPlatform.Lib
