import SaccoPlatform.Credit.PartPayments
import Mathlib.Algebra.Group.Submonoid.BigOperators

/-!
# Filling the instalments

What `_update_installments` does to a list of instalments. The interest and the principal are poured over
the rows side by side, and either pool fills one row after the other: it is enough to follow one column
with its bound. The columns keep four decimals, so the part of the last row that is reached is rounded.
`Decimal` keeps 28 digits of what is left, which is all of it for an amount of up to 13 decimals.
-/

namespace SaccoPlatform

open Lib Session

/-! ## One column -/

/-- A column that takes a part of what is left: what it should have, and what it has. -/
def fillColumn (left : ℚ) (column : ℚ × ℚ) : ℚ × (ℚ × ℚ) :=
  (lessPart left (partOf left column.1 column.2),
    (column.1, roundAt 4 (decimal (column.2 + partOf left column.1 column.2))))

/-- Four decimals, and no more than is due. -/
structure Fillable (column : ℚ × ℚ) : Prop where
  due_mem : column.1 ∈ grid 4
  due_lt : column.1 < 10 ^ 15
  paid_mem : column.2 ∈ grid 4
  nonneg : 0 ≤ column.2
  le : column.2 ≤ column.1

theorem Fillable.kept {c : ℚ × ℚ} (hc : Fillable c) : decimal c.1 = c.1 ∧ decimal c.2 = c.2 := by
  have hlt := hc.due_lt
  constructor
  · apply decimal_money hc.due_mem
    rw [abs_of_nonneg (hc.nonneg.trans hc.le)]
    linarith
  · apply decimal_money hc.paid_mem
    rw [abs_of_nonneg hc.nonneg]
    linarith [hc.le]

/-- What is unpaid. -/
def unpaid (columns : List (ℚ × ℚ)) : ℚ := (columns.map fun c => c.1 - c.2).sum

theorem unpaid_nonneg {columns : List (ℚ × ℚ)} (h : ∀ c ∈ columns, Fillable c) : 0 ≤ unpaid columns := by
  apply List.sum_nonneg
  intro q hq
  obtain ⟨c, hc, rfl⟩ := List.mem_map.mp hq
  exact sub_nonneg.mpr (h c hc).le

theorem unpaid_mem {columns : List (ℚ × ℚ)} (h : ∀ c ∈ columns, Fillable c) : unpaid columns ∈ grid 4 := by
  apply list_sum_mem
  intro q hq
  obtain ⟨c, hc, rfl⟩ := List.mem_map.mp hq
  exact sub_mem (h c hc).due_mem (h c hc).paid_mem

/-- A column takes what is left, or what it lacks. -/
theorem fillColumn_cases {left : ℚ} (hleft : 0 ≤ left) {c : ℚ × ℚ} (hc : Fillable c) :
    (c.1 - c.2 ≤ left ∧ fillColumn left c = (lessPart left (c.1 - c.2), (c.1, c.1))) ∨
      (left < c.1 - c.2 ∧ fillColumn left c = (0, (c.1, roundAt 4 (decimal (c.2 + left))))) := by
  have hopen : 0 ≤ c.1 - c.2 := sub_nonneg.mpr hc.le
  unfold fillColumn
  rw [partOf_eq hleft, max_eq_right hopen]
  rcases le_or_gt (c.1 - c.2) left with hfull | hshort
  · refine .inl ⟨hfull, ?_⟩
    rw [min_eq_right hfull, add_sub_cancel, hc.kept.1, roundAt_of_mem hc.due_mem]
  · refine .inr ⟨hshort, ?_⟩
    have hnone : lessPart left left = 0 := by
      unfold lessPart
      split
      · rw [sub_self, decimal_zero]
      · next hnot => exact le_antisymm (not_lt.mp hnot) hleft
    rw [min_eq_left hshort.le, hnone]

theorem fillColumn_nonneg {left : ℚ} (c : ℚ × ℚ) (hleft : 0 ≤ left) : 0 ≤ (fillColumn left c).1 :=
  lessPart_nonneg hleft (partOf_le hleft)

/-- Nothing fills nothing. -/
theorem pour_fillColumn_zero {columns : List (ℚ × ℚ)} (h : ∀ c ∈ columns, Fillable c) :
    pour fillColumn 0 columns = columns := by
  induction columns with
  | nil => rfl
  | cons c columns ih =>
    have hc := h c List.mem_cons_self
    have hzero : fillColumn 0 c = (0, c) := by
      have hpart : partOf 0 c.1 c.2 = 0 := le_antisymm (partOf_le le_rfl) partOf_nonneg
      rw [fillColumn, hpart, add_zero, lessPart, if_neg (lt_irrefl _), hc.kept.2, roundAt_of_mem hc.paid_mem]
    rw [pour, hzero, ih fun c' hc' => h c' (List.mem_cons_of_mem _ hc')]

/-- Part of what a column lacks, as it is stored: rounding does not go beyond what is due. -/
theorem roundAt_part_bounds {left : ℚ} (hleft : 0 ≤ left) {c : ℚ × ℚ} (hc : Fillable c)
    (hshort : left < c.1 - c.2) :
    c.2 ≤ roundAt 4 (decimal (c.2 + left)) ∧ roundAt 4 (decimal (c.2 + left)) ≤ c.1 := by
  constructor
  · calc c.2 = roundAt 4 (decimal c.2) := by rw [hc.kept.2, roundAt_of_mem hc.paid_mem]
      _ ≤ roundAt 4 (decimal (c.2 + left)) := roundAt_mono (decimal_mono (by linarith))
  · calc roundAt 4 (decimal (c.2 + left)) ≤ roundAt 4 (decimal c.1) :=
          roundAt_mono (decimal_mono (by linarith))
      _ = c.1 := by rw [hc.kept.1, roundAt_of_mem hc.due_mem]

/-- What is due stays, and what is paid stays between nothing and that. -/
theorem pour_fillColumn_bounds {left : ℚ} (hleft : 0 ≤ left) {columns : List (ℚ × ℚ)}
    (h : ∀ c ∈ columns, Fillable c) :
    List.Forall₂ (fun c c' => c'.1 = c.1 ∧ 0 ≤ c'.2 ∧ c'.2 ≤ c'.1) columns
      (pour fillColumn left columns) := by
  induction columns generalizing left with
  | nil => exact .nil
  | cons c columns ih =>
    have hc := h c List.mem_cons_self
    have hrest := ih (fillColumn_nonneg c hleft) fun c' hc' => h c' (List.mem_cons_of_mem _ hc')
    refine .cons ?_ hrest
    rcases fillColumn_cases hleft hc with ⟨-, heq⟩ | ⟨hshort, heq⟩
    · rw [heq]
      exact ⟨rfl, hc.nonneg.trans hc.le, le_rfl⟩
    · rw [heq]
      have hpart := roundAt_part_bounds hleft hc hshort
      exact ⟨rfl, hc.nonneg.trans hpart.1, hpart.2⟩

theorem unpaid_cons (c : ℚ × ℚ) (columns : List (ℚ × ℚ)) :
    unpaid (c :: columns) = (c.1 - c.2) + unpaid columns := by
  rw [unpaid, List.map_cons, List.sum_cons]
  rfl

theorem decimal_of_mem_thirteen {q : ℚ} (hq : q ∈ grid 13) (hfits : |q| < 10 ^ 15) : decimal q = q := by
  apply inContext_of_mem hq
  calc |q| * 10 ^ 13 < 10 ^ 15 * 10 ^ 13 := by gcongr
    _ = 10 ^ 28 := by norm_num

/-- The columns take an amount of up to 13 decimals, or all that is unpaid. -/
theorem sum_pour_fillColumn {left : ℚ} (hleft : 0 ≤ left) (hmem : left ∈ grid 13) (hlt : left < 10 ^ 15)
    {columns : List (ℚ × ℚ)} (h : ∀ c ∈ columns, Fillable c) :
    ((pour fillColumn left columns).map (·.2)).sum =
      (columns.map (·.2)).sum + roundAt 4 (min left (unpaid columns)) := by
  induction columns generalizing left with
  | nil =>
    have hzero : roundAt 4 (min left (unpaid [])) = 0 := by
      rw [unpaid, List.map_nil, List.sum_nil, min_eq_right hleft]
      exact roundAt_of_mem (zero_mem _)
    rw [hzero, add_zero]
    rfl
  | cons c columns ih =>
    have hc := h c List.mem_cons_self
    have hrest : ∀ c' ∈ columns, Fillable c' := fun c' hc' => h c' (List.mem_cons_of_mem _ hc')
    have hroom := unpaid_nonneg hrest
    have hlacks : c.1 - c.2 ∈ grid 4 := sub_mem hc.due_mem hc.paid_mem
    rw [pour, List.map_cons, List.sum_cons, List.map_cons, List.sum_cons, unpaid_cons]
    rcases fillColumn_cases hleft hc with ⟨hfull, heq⟩ | ⟨hshort, heq⟩
    · have hleft' : 0 ≤ left - (c.1 - c.2) := by linarith
      have hmem' : left - (c.1 - c.2) ∈ grid 13 := sub_mem hmem (grid_mono (by omega) hlacks)
      have hless : left - (c.1 - c.2) ≤ left := sub_le_self _ (sub_nonneg.mpr hc.le)
      have hkept : lessPart left (c.1 - c.2) = left - (c.1 - c.2) := by
        unfold lessPart
        split
        · apply decimal_of_mem_thirteen hmem'
          rw [abs_of_nonneg hleft']
          linarith
        · next hnot => rw [le_antisymm (not_lt.mp hnot) (sub_nonneg.mpr hc.le), sub_zero]
      have hmin : min left ((c.1 - c.2) + unpaid columns) =
          (c.1 - c.2) + min (left - (c.1 - c.2)) (unpaid columns) := by
        rw [← min_add_add_left, add_sub_cancel]
      have hround : roundAt 4 ((c.1 - c.2) + min (left - (c.1 - c.2)) (unpaid columns)) =
          (c.1 - c.2) + roundAt 4 (min (left - (c.1 - c.2)) (unpaid columns)) :=
        roundAt_add_mem hlacks (sub_nonneg.mpr hc.le) (le_min hleft' hroom)
      rw [heq, hkept, ih hleft' hmem' (by linarith), hmin, hround]
      · ring
      · exact hrest
    · have hmin : min left ((c.1 - c.2) + unpaid columns) = left := min_eq_left (by linarith)
      have hkept : decimal (c.2 + left) = c.2 + left := by
        apply decimal_of_mem_thirteen (add_mem (grid_mono (by omega) hc.paid_mem) hmem)
        rw [abs_of_nonneg (add_nonneg hc.nonneg hleft)]
        linarith [hc.due_lt]
      rw [heq, pour_fillColumn_zero hrest, hmin, hkept, roundAt_add_mem hc.paid_mem hc.nonneg hleft]
      ring

/-- What lies within half a unit of `z` is kept there by `Decimal`. -/
theorem decimal_near {q z : ℚ} (hz : z ∈ grid 4) (hz0 : 0 ≤ z) (hzlt : z < 2 * 10 ^ 16)
    (hlow : z - 1 / (2 * 10 ^ 4) ≤ q) (hhigh : q ≤ z + 1 / (2 * 10 ^ 4)) :
    z - 1 / (2 * 10 ^ 4) ≤ decimal q ∧ decimal q ≤ z + 1 / (2 * 10 ^ 4) := by
  have hhalf : (1 : ℚ) / (2 * 10 ^ 4) ∈ grid 5 := mem_grid.mpr ⟨5, by norm_num⟩
  have hz5 : z ∈ grid 5 := grid_mono (by omega) hz
  constructor
  · refine le_decimal (sub_mem hz5 hhalf) ?_ hlow
    rw [abs_lt]
    norm_num at hzlt ⊢
    constructor <;> linarith
  · refine decimal_le (add_mem hz5 hhalf) ?_ hhigh
    rw [abs_lt]
    norm_num at hzlt ⊢
    constructor <;> linarith

/-- The columns take an amount within half a unit of `z`, however many decimals it has, as `z` or as a
unit more. -/
theorem sum_pour_fillColumn_near {left z : ℚ} (hleft : 0 ≤ left) (hz : z ∈ grid 4) (hz0 : 0 ≤ z)
    (hzlt : z < 10 ^ 16) (hlow : z - 1 / (2 * 10 ^ 4) ≤ left) (hhigh : left ≤ z + 1 / (2 * 10 ^ 4))
    {columns : List (ℚ × ℚ)} (h : ∀ c ∈ columns, Fillable c) :
    (columns.map (·.2)).sum + min z (unpaid columns) ≤ ((pour fillColumn left columns).map (·.2)).sum ∧
      ((pour fillColumn left columns).map (·.2)).sum ≤
        (columns.map (·.2)).sum + min (z + 1 / 10 ^ 4) (unpaid columns) := by
  induction columns generalizing left z with
  | nil =>
    have hnone : unpaid [] = 0 := rfl
    rw [hnone, min_eq_right hz0, min_eq_right (by positivity), add_zero]
    exact ⟨le_rfl, le_rfl⟩
  | cons c columns ih =>
    have hc := h c List.mem_cons_self
    have hrest : ∀ c' ∈ columns, Fillable c' := fun c' hc' => h c' (List.mem_cons_of_mem _ hc')
    have hroom := unpaid_nonneg hrest
    have hlacks : c.1 - c.2 ∈ grid 4 := sub_mem hc.due_mem hc.paid_mem
    have hopen : 0 ≤ c.1 - c.2 := sub_nonneg.mpr hc.le
    have hdue := hc.due_lt
    have hpaid := hc.nonneg
    rw [pour, List.map_cons, List.sum_cons, List.map_cons, List.sum_cons, unpaid_cons]
    rcases fillColumn_cases hleft hc with ⟨hfull, heq⟩ | ⟨hshort, heq⟩
    · have hle : c.1 - c.2 ≤ z := by
        by_contra hnot
        have hunit := add_unit_le_of_lt hz hlacks (not_le.mp hnot)
        norm_num at hunit hhigh
        linarith
      have hz' : z - (c.1 - c.2) ∈ grid 4 := sub_mem hz hlacks
      have hbounds : z - (c.1 - c.2) - 1 / (2 * 10 ^ 4) ≤ lessPart left (c.1 - c.2) ∧
          lessPart left (c.1 - c.2) ≤ z - (c.1 - c.2) + 1 / (2 * 10 ^ 4) := by
        unfold lessPart
        split
        · exact decimal_near hz' (by linarith) (by linarith) (by linarith) (by linarith)
        · next hnot =>
          rw [le_antisymm (not_lt.mp hnot) hopen, sub_zero]
          exact ⟨hlow, hhigh⟩
      obtain ⟨hless, hmore⟩ := ih (lessPart_nonneg hleft hfull) hz' (by linarith) (by linarith) hbounds.1
        hbounds.2 hrest
      have hmin : ∀ x, min x ((c.1 - c.2) + unpaid columns) =
          (c.1 - c.2) + min (x - (c.1 - c.2)) (unpaid columns) := by
        intro x
        rw [← min_add_add_left, add_sub_cancel]
      have hshift : z + 1 / 10 ^ 4 - (c.1 - c.2) = z - (c.1 - c.2) + 1 / 10 ^ 4 := by ring
      rw [heq, hmin, hmin, hshift]
      constructor <;> linarith
    · -- the last column that gets something
      have hle : z ≤ c.1 - c.2 := by
        by_contra hnot
        have hunit := add_unit_le_of_lt hlacks hz (not_le.mp hnot)
        norm_num at hunit hlow
        linarith
      have hsum : c.2 + z ∈ grid 4 := add_mem hc.paid_mem hz
      obtain ⟨hkeptLow, hkeptHigh⟩ : c.2 + z - 1 / (2 * 10 ^ 4) ≤ decimal (c.2 + left) ∧
          decimal (c.2 + left) ≤ c.2 + z + 1 / (2 * 10 ^ 4) :=
        decimal_near hsum (by linarith) (by linarith [hc.le]) (by linarith) (by linarith)
      obtain ⟨hpart, hpartDue⟩ := roundAt_part_bounds hleft hc hshort
      rw [heq, pour_fillColumn_zero hrest]
      have hstored : roundAt 4 (decimal (c.2 + left)) ∈ grid 4 := roundAt_mem_grid 4 _
      obtain ⟨hbelow, habove⟩ := (roundAt_eq_iff hstored (decimal_nonneg (add_nonneg hpaid hleft))).mp rfl
      have hgot : c.2 + z ≤ roundAt 4 (decimal (c.2 + left)) := by
        by_contra hnot
        have hunit := add_unit_le_of_lt hstored hsum (not_le.mp hnot)
        norm_num at hunit hkeptLow habove
        linarith
      have hmost : roundAt 4 (decimal (c.2 + left)) ≤ c.2 + z + 1 / 10 ^ 4 := by
        norm_num at hbelow hkeptHigh ⊢
        linarith
      have hmin : min z ((c.1 - c.2) + unpaid columns) ≤ z := min_le_left _ _
      have hmin' : roundAt 4 (decimal (c.2 + left)) - c.2 ≤
          min (z + 1 / 10 ^ 4) ((c.1 - c.2) + unpaid columns) := le_min (by linarith) (by linarith)
      constructor <;> linarith

/-- A column gets something only when every column before it is full. -/
theorem pour_fillColumn_order {left : ℚ} (hleft : 0 ≤ left) {columns : List (ℚ × ℚ)}
    (h : ∀ c ∈ columns, Fillable c) :
    (columns.zip (pour fillColumn left columns)).Pairwise fun x y =>
      y.1.2 < y.2.2 → x.2.2 = x.2.1 := by
  induction columns generalizing left with
  | nil => exact .nil
  | cons c columns ih =>
    have hc := h c List.mem_cons_self
    have hrest : ∀ c' ∈ columns, Fillable c' := fun c' hc' => h c' (List.mem_cons_of_mem _ hc')
    rw [pour, List.zip_cons_cons, List.pairwise_cons]
    refine ⟨?_, ih (fillColumn_nonneg c hleft) hrest⟩
    intro y hy hmore
    rcases fillColumn_cases hleft hc with ⟨-, heq⟩ | ⟨-, heq⟩
    · rw [heq]
    · rw [heq, pour_fillColumn_zero hrest] at hy
      have hsame : y.1 = y.2 := by
        obtain ⟨k, hk, rfl⟩ := List.mem_iff_getElem.mp hy
        rw [List.getElem_zip]
      rw [hsame] at hmore
      exact absurd hmore (lt_irrefl _)

/-! ## Two columns of instalments -/

/-- What is paid lies between nothing and what is due. -/
structure LoanInstallment.InBounds (inst : LoanInstallment) : Prop where
  interest_nonneg : 0 ≤ inst.interestPaid.val
  interest_le : inst.interestPaid.val ≤ inst.interestDue.val
  principal_nonneg : 0 ≤ inst.principalPaid.val
  principal_le : inst.principalPaid.val ≤ inst.principalDue.val

instance (inst : LoanInstallment) : Decidable inst.InBounds :=
  decidable_of_iff (0 ≤ inst.interestPaid.val ∧ inst.interestPaid.val ≤ inst.interestDue.val ∧
      0 ≤ inst.principalPaid.val ∧ inst.principalPaid.val ≤ inst.principalDue.val)
    ⟨fun h => ⟨h.1, h.2.1, h.2.2.1, h.2.2.2⟩,
      fun h => ⟨h.interest_nonneg, h.interest_le, h.principal_nonneg, h.principal_le⟩⟩

/-- What an amount does to one column of the instalments: what is paid stays in its bounds, in total it grows
by the amount or by all that is unpaid, as rounded, and an instalment gets something only if every earlier
one is then fully paid. With more decimals than `Decimal` keeps, it may grow by one unit more. -/
structure Filled (due paid : LoanInstallment → Money) (amount : ℚ) (before after : List LoanInstallment) :
    Prop where
  bounds : ∀ row ∈ after, 0 ≤ (paid row).val ∧ (paid row).val ≤ (due row).val
  total : amount ∈ grid 13 → amount < 10 ^ 15 →
    (after.map fun row => (paid row).val).sum = (before.map fun inst => (paid inst).val).sum +
      roundAt 4 (min amount (before.map fun inst => (due inst).val - (paid inst).val).sum)
  near : amount < 10 ^ 15 →
    (before.map fun inst => (paid inst).val).sum +
        roundAt 4 (min amount (before.map fun inst => (due inst).val - (paid inst).val).sum) ≤
      (after.map fun row => (paid row).val).sum ∧
    (after.map fun row => (paid row).val).sum ≤ (before.map fun inst => (paid inst).val).sum +
      roundAt 4 (min amount (before.map fun inst => (due inst).val - (paid inst).val).sum) + 1 / 10 ^ 4
  order : (before.zip after).Pairwise fun x y => (paid y.1).val < (paid y.2).val → paid x.2 = due x.2

/-- Instalments whose column was filled. -/
theorem filled_of_columns {due paid : LoanInstallment → Money} {amount : ℚ} (hamount : 0 ≤ amount)
    {before after : List LoanInstallment}
    (hbounds : ∀ inst ∈ before, 0 ≤ (paid inst).val ∧ (paid inst).val ≤ (due inst).val)
    (hcolumns : after.map (fun row => ((due row).val, (paid row).val)) =
      pour fillColumn amount (before.map fun inst => ((due inst).val, (paid inst).val))) :
    Filled due paid amount before after := by
  have hfillable : ∀ c ∈ before.map fun inst => ((due inst).val, (paid inst).val), Fillable c := by
    intro c hc
    obtain ⟨inst, hinst, rfl⟩ := List.mem_map.mp hc
    have hdue : |(due inst).val| < 10 ^ 15 := (due inst).fits
    exact ⟨(due inst).onGrid, (abs_lt.mp hdue).2, (paid inst).onGrid, (hbounds inst hinst).1,
      (hbounds inst hinst).2⟩
  constructor
  · intro row hrow
    have hmem : ((due row).val, (paid row).val) ∈
        pour fillColumn amount (before.map fun inst => ((due inst).val, (paid inst).val)) := by
      rw [← hcolumns]
      exact List.mem_map_of_mem hrow
    obtain ⟨c, -, hc⟩ := forall₂_exists_left (pour_fillColumn_bounds hamount hfillable) hmem
    exact hc.2
  · intro hmem hlt
    have hsum := sum_pour_fillColumn hamount hmem hlt hfillable
    rw [← hcolumns, List.map_map, List.map_map, unpaid, List.map_map] at hsum
    exact hsum
  · intro hlt
    obtain ⟨hlow, hhigh⟩ := (roundAt_eq_iff (roundAt_mem_grid 4 amount) hamount).mp rfl
    have hround : roundAt 4 amount < 10 ^ 16 := by
      norm_num at hlow hlt ⊢
      linarith
    have hsum := sum_pour_fillColumn_near hamount (roundAt_mem_grid 4 amount) (roundAt_nonneg hamount)
      hround hlow hhigh.le hfillable
    have hmin : roundAt 4 (min amount (unpaid (before.map fun inst => ((due inst).val, (paid inst).val)))) =
        min (roundAt 4 amount) (unpaid (before.map fun inst => ((due inst).val, (paid inst).val))) := by
      rw [Monotone.map_min (f := roundAt 4) (fun _ _ h => roundAt_mono h),
        roundAt_of_mem (unpaid_mem hfillable)]
    have hmore := min_le_min_right (unpaid (before.map fun inst => ((due inst).val, (paid inst).val)))
      (le_refl (roundAt 4 amount + 1 / 10 ^ 4))
    have hunit : min (roundAt 4 amount + 1 / 10 ^ 4)
          (unpaid (before.map fun inst => ((due inst).val, (paid inst).val))) ≤
        min (roundAt 4 amount) (unpaid (before.map fun inst => ((due inst).val, (paid inst).val))) +
          1 / 10 ^ 4 := by
      rw [← min_add_add_right]
      exact min_le_min_left _ (le_add_of_nonneg_right (by positivity))
    rw [← hmin] at hsum hunit
    rw [← hcolumns, List.map_map, List.map_map] at hsum
    rw [unpaid, List.map_map] at hsum hunit
    exact ⟨hsum.1, hsum.2.trans (by rw [add_assoc]; exact add_le_add_right hunit _)⟩
  · have horder := pour_fillColumn_order hamount hfillable
    rw [← hcolumns, List.zip_map, List.pairwise_map] at horder
    refine horder.imp ?_
    intro x y hxy hmore
    exact Numeric.ext (hxy hmore)

/-- Nothing negative is left of either. -/
def LeftNonneg (left : ℚ × ℚ) : Prop := 0 ≤ left.1 ∧ 0 ≤ left.2

theorem leftNonneg_payRow (left : ℚ × ℚ) (inst : LoanInstallment) (h : LeftNonneg left) :
    LeftNonneg (payRow left inst).1 := by
  unfold payRow
  split
  · exact h
  · exact ⟨lessPart_nonneg h.1 (partOf_le h.1), lessPart_nonneg h.2 (partOf_le h.2)⟩

/-- A row takes its interest without regard to the principal. -/
theorem payRow_interest (left : ℚ × ℚ) (inst : LoanInstallment) (h : LeftNonneg left) :
    fillColumn left.1 (inst.interestDue.val, inst.interestPaid.val) = ((payRow left inst).1.1,
      ((payRow left inst).2.interestDue.val, (payRow left inst).2.interestPaid.val)) := by
  unfold payRow
  split
  · rename_i hdone
    have hpart : partOf left.1 inst.interestDue.val inst.interestPaid.val = 0 :=
      le_antisymm ((partOf_le h.1).trans hdone.1) partOf_nonneg
    show (lessPart left.1 _, (_, roundAt 4 (decimal (inst.interestPaid.val + _)))) = _
    rw [hpart, add_zero, lessPart, if_neg (lt_irrefl _), decimal_val,
      roundAt_of_mem inst.interestPaid.onGrid]
  · obtain ⟨-, hval⟩ := ofRat?_paidUp_round left.1 inst.interestDue inst.interestPaid
    show (lessPart left.1 _, (_, roundAt 4 (decimal _))) = (lessPart left.1 _, (_, (paidUp _ _).val))
    exact congrArg (fun q => (_, (_, q))) hval.symm

theorem payRow_principal (left : ℚ × ℚ) (inst : LoanInstallment) (h : LeftNonneg left) :
    fillColumn left.2 (inst.principalDue.val, inst.principalPaid.val) = ((payRow left inst).1.2,
      ((payRow left inst).2.principalDue.val, (payRow left inst).2.principalPaid.val)) := by
  unfold payRow
  split
  · rename_i hdone
    have hpart : partOf left.2 inst.principalDue.val inst.principalPaid.val = 0 :=
      le_antisymm ((partOf_le h.2).trans hdone.2) partOf_nonneg
    show (lessPart left.2 _, (_, roundAt 4 (decimal (inst.principalPaid.val + _)))) = _
    rw [hpart, add_zero, lessPart, if_neg (lt_irrefl _), decimal_val,
      roundAt_of_mem inst.principalPaid.onGrid]
  · obtain ⟨-, hval⟩ := ofRat?_paidUp_round left.2 inst.principalDue inst.principalPaid
    show (lessPart left.2 _, (_, roundAt 4 (decimal _))) = (lessPart left.2 _, (_, (paidUp _ _).val))
    exact congrArg (fun q => (_, (_, q))) hval.symm

/-- A row that is marked paid by a payment is fully paid. -/
theorem payRow_paid {left : ℚ × ℚ} (h : LeftNonneg left) {inst : LoanInstallment} (hopen : inst.Open)
    (hbounds : inst.InBounds) (hpaid : (payRow left inst).2.status = .paid) :
    (payRow left inst).2.interestPaid = (payRow left inst).2.interestDue ∧
      (payRow left inst).2.principalPaid = (payRow left inst).2.principalDue := by
  have hnot : inst.status ≠ .paid := by
    rcases hopen with hstatus | hstatus | hstatus <;> rw [hstatus] <;> decide
  unfold payRow at hpaid ⊢
  split at hpaid
  · exact absurd hpaid hnot
  · rename_i hdone
    rw [if_neg hdone]
    have hfull : inst.interestDue.val ≤ decimal (inst.interestPaid.val + inst.interestPart left.1) ∧
        inst.principalDue.val ≤ decimal (inst.principalPaid.val + inst.principalPart left.2) := by
      by_contra hshort
      have hstatus : inst.statusPaid (decimal (inst.interestPaid.val + inst.interestPart left.1))
          (decimal (inst.principalPaid.val + inst.principalPart left.2)) = .paid := hpaid
      rw [LoanInstallment.statusPaid, if_neg hshort] at hstatus
      split at hstatus
      · cases hstatus
      · exact hnot hstatus
    -- a part is never more than what is unpaid
    have hexact : ∀ (part : ℚ) (due paid : Money), 0 ≤ part → paid.val ≤ due.val →
        due.val ≤ decimal (paid.val + partOf part due.val paid.val) →
          paidUp paid (partOf part due.val paid.val) = due := by
      intro part due paid hpart hle hcovered
      have hmost : partOf part due.val paid.val ≤ due.val - paid.val := by
        rw [partOf_eq hpart, max_eq_right (sub_nonneg.mpr hle)]
        exact min_le_right _ _
      have hsum : decimal (paid.val + partOf part due.val paid.val) ≤ due.val := by
        rw [← decimal_val due]
        exact decimal_mono (by rw [decimal_val]; linarith)
      obtain ⟨-, hval⟩ := ofRat?_paidUp_round part due paid
      ext
      rw [hval, le_antisymm hsum hcovered, roundAt_of_mem due.onGrid]
    exact ⟨hexact left.1 _ _ h.1 hbounds.interest_le hfull.1,
      hexact left.2 _ _ h.2 hbounds.principal_le hfull.2⟩

/-- Only what is paid and the status change. -/
theorem payRow_rest (left : ℚ × ℚ) (inst : LoanInstallment) : (payRow left inst).2 =
    { inst with
      interestPaid := (payRow left inst).2.interestPaid
      principalPaid := (payRow left inst).2.principalPaid
      status := (payRow left inst).2.status } := by
  unfold payRow
  split <;> rfl

/-- Whatever is allocated: the open instalments of the loan are filled from the oldest on, with the interest
and with the principal, the others stay as they are, and an instalment ends as paid only if it is fully
paid. -/
theorem updateInstallments_fills {t : Tables} (hids : (t.installments.map (·.id)).Nodup) {loanId : Uuid}
    (hbounds : ∀ inst ∈ t.openInstallments loanId, inst.InBounds) {interest principal : ℚ}
    (hinterest : 0 ≤ interest) (hprincipal : 0 ≤ principal) :
    ∃ after, updateInstallments loanId interest principal t =
        .ok () { t with installments := t.installments.map (rewritten (·.id) after) } ∧
      List.Forall₂ (fun inst row : LoanInstallment => row = { inst with
        interestPaid := row.interestPaid, principalPaid := row.principalPaid, status := row.status })
        (t.openInstallments loanId) after ∧
      Filled (·.interestDue) (·.interestPaid) interest (t.openInstallments loanId) after ∧
      Filled (·.principalDue) (·.principalPaid) principal (t.openInstallments loanId) after ∧
      ∀ row ∈ after, row.status = .paid →
        row.interestPaid = row.interestDue ∧ row.principalPaid = row.principalDue := by
  have hleft : LeftNonneg (interest, principal) := ⟨hinterest, hprincipal⟩
  refine ⟨pour payRow (interest, principal) (t.openInstallments loanId), updateInstallments_eq hids,
    ?_, ?_, ?_, ?_⟩
  · generalize (interest, principal) = left
    induction t.openInstallments loanId generalizing left with
    | nil => exact .nil
    | cons inst rows ih => exact .cons (payRow_rest left inst) (ih _)
  · refine filled_of_columns hinterest (fun inst hinst =>
      ⟨(hbounds inst hinst).interest_nonneg, (hbounds inst hinst).interest_le⟩) ?_
    exact map_pour leftNonneg_payRow payRow_interest hleft _
  · refine filled_of_columns hprincipal (fun inst hinst =>
      ⟨(hbounds inst hinst).principal_nonneg, (hbounds inst hinst).principal_le⟩) ?_
    exact map_pour leftNonneg_payRow payRow_principal hleft _
  · intro row hrow hpaid
    obtain ⟨part, inst, hpart, hinst, rfl⟩ := exists_of_mem_pour leftNonneg_payRow hleft hrow
    exact payRow_paid hpart (mem_openInstallments.mp hinst).2.2 (hbounds inst hinst) hpaid

/-- The sample loan just after its disbursement: two instalments of 10 interest and 500 principal. -/
def flatLoanTenant : Tables := run (CreditOp.step .python) (sampleTenant .flat) [sampleDisbursement]

/-- Both pools reach into the second instalment. -/
theorem updateInstallments_fills_sample : ∃ after, updateInstallments 11 15 600 flatLoanTenant =
      .ok () { flatLoanTenant with
        installments := flatLoanTenant.installments.map (rewritten (·.id) after) } ∧
    Filled (·.interestDue) (·.interestPaid) 15 (flatLoanTenant.openInstallments 11) after ∧
    Filled (·.principalDue) (·.principalPaid) 600 (flatLoanTenant.openInstallments 11) after := by
  obtain ⟨after, hupdate, -, hinterest, hprincipal, -⟩ := @updateInstallments_fills flatLoanTenant
    (by decide +kernel) 11 (by decide +kernel) 15 600 (by norm_num) (by norm_num)
  exact ⟨after, hupdate, hinterest, hprincipal⟩

/-- Interest of less than half a unit of the column is allocated and not recorded. -/
theorem updateInstallments_rounds : ∃ t', updateInstallments 11 (4 / 100000) 0 flatLoanTenant = .ok () t' ∧
    (t'.installments.map (·.interestPaid.val)).sum = 0 ∧
    ¬ ∀ (t t' : Tables) (loanId : Uuid) (interest principal : ℚ),
      (t.installments.map (·.id)).Nodup → (∀ inst ∈ t.openInstallments loanId, inst.InBounds) →
      0 ≤ interest → 0 ≤ principal → updateInstallments loanId interest principal t = .ok () t' →
      (t'.installments.map (·.interestPaid.val)).sum = (t.installments.map (·.interestPaid.val)).sum +
        min interest ((t.openInstallments loanId).map
          fun inst => inst.interestDue.val - inst.interestPaid.val).sum := by
  have hids : (flatLoanTenant.installments.map (·.id)).Nodup := by decide +kernel
  have hsum : ((flatLoanTenant.pouredInstallments 11 (4 / 100000, 0)).map (·.interestPaid.val)).sum = 0 := by
    decide +kernel
  refine ⟨_, updateInstallments_eq hids, hsum, ?_⟩
  intro hall
  have hwrong := hall flatLoanTenant _ 11 (4 / 100000) 0 hids (by decide +kernel) (by norm_num) le_rfl
    (updateInstallments_eq hids)
  have hbefore : (flatLoanTenant.installments.map (·.interestPaid.val)).sum = 0 := by decide +kernel
  have hunpaid : ((flatLoanTenant.openInstallments 11).map
      fun inst => inst.interestDue.val - inst.interestPaid.val).sum = 20 := by decide +kernel
  rw [hsum, hbefore, hunpaid] at hwrong
  norm_num at hwrong

end SaccoPlatform
