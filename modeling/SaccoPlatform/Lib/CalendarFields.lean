import SaccoPlatform.Lib.Calendar
import Mathlib.Order.Monotone.Basic
import Mathlib.Tactic.Linarith

/-!
# Year, month and day

A date lies in its year and its month, and no other year, month and day have its ordinal. So
`ofYmd?` is inverse to `year`, `month` and `day`.
-/

namespace SaccoPlatform.Lib.Date

/-! ## Years -/

def daysInYear (year : ℕ) : ℕ := if isLeap year then 366 else 365

theorem isLeap_iff (year : ℕ) :
    isLeap year = true ↔ year % 4 = 0 ∧ (year % 100 ≠ 0 ∨ year % 400 = 0) := by
  simp [isLeap]

/-- The days before a year, by the cycles of 400, 100, 4 and 1 years before it. -/
theorem daysBeforeYear_cycles {a b c e : ℕ} (hb : b ≤ 3) (hc : c ≤ 24) (he : e ≤ 3) :
    daysBeforeYear (400 * a + 100 * b + 4 * c + e + 1) = 146097 * a + 36524 * b + 1461 * c + 365 * e := by
  have h4 : (400 * a + 100 * b + 4 * c + e) / 4 = 100 * a + 25 * b + c := by omega
  have h100 : (400 * a + 100 * b + 4 * c + e) / 100 = 4 * a + b := by omega
  have h400 : (400 * a + 100 * b + 4 * c + e) / 400 = a := by omega
  unfold daysBeforeYear
  dsimp only
  rw [Nat.add_sub_cancel, h4, h100, h400]
  omega

theorem exists_cycles (y : ℕ) :
    ∃ a b c e, b ≤ 3 ∧ c ≤ 24 ∧ e ≤ 3 ∧ y = 400 * a + 100 * b + 4 * c + e :=
  ⟨y / 400, y % 400 / 100, y % 100 / 4, y % 4, by omega, by omega, by omega, by omega⟩

/-- The last year of each cycle of four is a leap year, but not in the cycle that ends a century,
unless it ends the 400 years. -/
theorem isLeap_cycles {a b c e : ℕ} (hb : b ≤ 3) (hc : c ≤ 24) (he : e ≤ 3) :
    isLeap (400 * a + 100 * b + 4 * c + e + 1) = true ↔ e = 3 ∧ (c = 24 → b = 3) := by
  rw [isLeap_iff]
  have h4 : (400 * a + 100 * b + 4 * c + e + 1) % 4 = (e + 1) % 4 := by omega
  have h100 : (400 * a + 100 * b + 4 * c + e + 1) % 100 = (4 * c + e + 1) % 100 := by omega
  have h400 : (400 * a + 100 * b + 4 * c + e + 1) % 400 = (100 * b + 4 * c + e + 1) % 400 := by omega
  rw [h4, h100, h400]
  omega

theorem daysBeforeYear_succ {year : ℕ} (hyear : 1 ≤ year) :
    daysBeforeYear (year + 1) = daysBeforeYear year + daysInYear year := by
  obtain ⟨y, rfl⟩ : ∃ y, year = y + 1 := ⟨year - 1, by omega⟩
  obtain ⟨a, b, c, e, hb, hc, he, rfl⟩ := exists_cycles y
  have hleap := @isLeap_cycles a b c e hb hc he
  unfold daysInYear
  rw [@daysBeforeYear_cycles a b c e hb hc he]
  by_cases he3 : e < 3
  · -- another year of the same four
    have hnext := @daysBeforeYear_cycles a b c (e + 1) hb hc he3
    have hno : ¬ (e = 3 ∧ (c = 24 → b = 3)) := by omega
    rw [if_neg (fun h => hno (hleap.mp h))]
    show daysBeforeYear (400 * a + 100 * b + 4 * c + (e + 1) + 1) = _
    rw [hnext]
    omega
  · obtain rfl : e = 3 := by omega
    by_cases hc24 : c < 24
    · have hnext := @daysBeforeYear_cycles a b (c + 1) 0 hb hc24 (Nat.zero_le 3)
      have hsame : 400 * a + 100 * b + 4 * (c + 1) + 0 + 1 = 400 * a + 100 * b + 4 * c + 3 + 1 + 1 := by omega
      rw [if_pos (hleap.mpr ⟨rfl, by omega⟩), ← hsame, hnext]
      omega
    · obtain rfl : c = 24 := by omega
      by_cases hb3 : b < 3
      · have hnext := @daysBeforeYear_cycles a (b + 1) 0 0 hb3 (Nat.zero_le 24) (Nat.zero_le 3)
        have hsame : 400 * a + 100 * (b + 1) + 4 * 0 + 0 + 1 = 400 * a + 100 * b + 4 * 24 + 3 + 1 + 1 := by
          omega
        have hno : ¬ (3 = 3 ∧ (24 = 24 → b = 3)) := by omega
        rw [if_neg (fun h => hno (hleap.mp h)), ← hsame, hnext]
        omega
      · obtain rfl : b = 3 := by omega
        have hnext := @daysBeforeYear_cycles (a + 1) 0 0 0 (Nat.zero_le 3) (Nat.zero_le 24) (Nat.zero_le 3)
        have hsame : 400 * (a + 1) + 100 * 0 + 4 * 0 + 0 + 1 = 400 * a + 100 * 3 + 4 * 24 + 3 + 1 + 1 := by
          omega
        rw [if_pos (hleap.mpr ⟨rfl, fun _ => rfl⟩), ← hsame, hnext]
        omega

theorem daysBeforeYear_mono : Monotone daysBeforeYear := by
  apply monotone_nat_of_le_succ
  intro year
  cases year with
  | zero => exact Nat.le_refl _
  | succ year =>
    rw [daysBeforeYear_succ (Nat.le_add_left 1 year)]
    exact Nat.le_add_right _ _

/-- A date lies in its year. -/
theorem year_spec (d : Date) :
    1 ≤ d.year ∧ daysBeforeYear d.year < d.ordinal ∧ d.ordinal ≤ daysBeforeYear (d.year + 1) := by
  have hpos := d.inRange.1
  obtain ⟨a, r₁, hr₁, hn⟩ : ∃ a r₁, r₁ < 146097 ∧ d.ordinal - 1 = 146097 * a + r₁ :=
    ⟨(d.ordinal - 1) / 146097, (d.ordinal - 1) % 146097, by omega, by omega⟩
  obtain ⟨b, r₂, hr₂, hn₁⟩ : ∃ b r₂, r₂ < 36524 ∧ r₁ = 36524 * b + r₂ :=
    ⟨r₁ / 36524, r₁ % 36524, by omega, by omega⟩
  obtain ⟨c, r₃, hr₃, hn₂⟩ : ∃ c r₃, r₃ < 1461 ∧ r₂ = 1461 * c + r₃ :=
    ⟨r₂ / 1461, r₂ % 1461, by omega, by omega⟩
  obtain ⟨e, r₄, hr₄, hn₃⟩ : ∃ e r₄, r₄ < 365 ∧ r₃ = 365 * e + r₄ :=
    ⟨r₃ / 365, r₃ % 365, by omega, by omega⟩
  have hyear : d.year = if e = 4 ∨ b = 4 then 400 * a + 100 * b + 4 * c + e
      else 400 * a + 100 * b + 4 * c + e + 1 := by
    have ha : (d.ordinal - 1) / 146097 = a := by omega
    have hm : (d.ordinal - 1) % 146097 = r₁ := by omega
    have hb : r₁ / 36524 = b := by omega
    have hm₁ : r₁ % 36524 = r₂ := by omega
    have hc : r₂ / 1461 = c := by omega
    have hm₂ : r₂ % 1461 = r₃ := by omega
    have he : r₃ / 365 = e := by omega
    unfold year
    dsimp only
    rw [ha, hm, hb, hm₁, hc, hm₂, he]
    split
    · omega
    · omega
  by_cases hb4 : b = 4
  · -- the last day of 400 years
    have hlast := @daysBeforeYear_cycles a 3 24 3 (by omega) (by omega) (by omega)
    have hnext := @daysBeforeYear_cycles (a + 1) 0 0 0 (by omega) (by omega) (by omega)
    have hy : d.year = 400 * a + 100 * 3 + 4 * 24 + 3 + 1 := by
      rw [hyear, if_pos (.inr hb4)]
      omega
    have hy' : d.year + 1 = 400 * (a + 1) + 100 * 0 + 4 * 0 + 0 + 1 := by omega
    rw [hy', hnext, hy, hlast]
    omega
  · by_cases he4 : e = 4
    · -- the last day of four years
      have hlast := @daysBeforeYear_cycles a b c 3 (by omega) (by omega) (by omega)
      have hnext := @daysBeforeYear_cycles a b (c + 1) 0 (by omega) (by omega) (by omega)
      have hy : d.year = 400 * a + 100 * b + 4 * c + 3 + 1 := by
        rw [hyear, if_pos (.inl he4)]
        omega
      have hy' : d.year + 1 = 400 * a + 100 * b + 4 * (c + 1) + 0 + 1 := by omega
      rw [hy', hnext, hy, hlast]
      omega
    · have hbefore := @daysBeforeYear_cycles a b c e (by omega) (by omega) (by omega)
      have hy : d.year = 400 * a + 100 * b + 4 * c + e + 1 := by
        rw [hyear, if_neg (not_or.mpr ⟨he4, hb4⟩)]
      have hlong : 365 ≤ daysInYear d.year := by
        unfold daysInYear
        split
        · omega
        · omega
      have hpos' : 1 ≤ d.year := by omega
      have hnext := daysBeforeYear_succ hpos'
      rw [← hy] at hbefore
      omega

/-- Only its own year contains a date. -/
theorem year_eq {d : Date} {y : ℕ} (hafter : daysBeforeYear y < d.ordinal)
    (hbefore : d.ordinal ≤ daysBeforeYear (y + 1)) : d.year = y := by
  obtain ⟨-, hafter', hbefore'⟩ := d.year_spec
  by_contra hne
  rcases Nat.lt_or_gt_of_ne hne with hlt | hgt
  · have hmono := daysBeforeYear_mono (Nat.succ_le_of_lt hlt)
    rw [Nat.succ_eq_add_one] at hmono
    omega
  · have hmono := daysBeforeYear_mono (Nat.succ_le_of_lt hgt)
    rw [Nat.succ_eq_add_one] at hmono
    omega

theorem daysBeforeYear_max : daysBeforeYear 10000 = maxOrdinal := by decide

theorem year_le (d : Date) : d.year ≤ 9999 := by
  obtain ⟨-, hafter, -⟩ := d.year_spec
  have hmax := d.inRange.2
  by_contra hlate
  have hmono := daysBeforeYear_mono (show 10000 ≤ d.year by omega)
  rw [daysBeforeYear_max] at hmono
  omega

/-! ## Months -/

theorem daysInMonth_pos (year month : ℕ) : 28 ≤ daysInMonth year month ∧ daysInMonth year month ≤ 31 := by
  unfold daysInMonth
  split_ifs
  all_goals omega

theorem daysBeforeMonth_succ (year : ℕ) {month : ℕ} (hmonth : 1 ≤ month) :
    daysBeforeMonth year (month + 1) = daysBeforeMonth year month + daysInMonth year month := by
  obtain ⟨m, rfl⟩ : ∃ m, month = m + 1 := ⟨month - 1, by omega⟩
  rfl

theorem daysBeforeMonth_mono (year : ℕ) : Monotone (daysBeforeMonth year) := by
  apply monotone_nat_of_le_succ
  intro month
  cases month with
  | zero => exact Nat.le_refl _
  | succ month =>
    rw [daysBeforeMonth_succ year (Nat.le_add_left 1 month)]
    exact Nat.le_add_right _ _

/-- Twelve months are a year. -/
theorem daysBeforeMonth_thirteen (year : ℕ) : daysBeforeMonth year 13 = daysInYear year := by
  unfold daysInYear
  simp only [daysBeforeMonth, daysInMonth]
  cases isLeap year with
  | true => rfl
  | false => rfl

theorem monthFrom_spec (year n : ℕ) {k m : ℕ} (hafter : daysBeforeMonth year m ≤ n)
    (hbefore : n < daysBeforeMonth year (m + k + 1)) :
    m ≤ monthFrom year n k m ∧ monthFrom year n k m ≤ m + k ∧
      daysBeforeMonth year (monthFrom year n k m) ≤ n ∧
      n < daysBeforeMonth year (monthFrom year n k m + 1) := by
  induction k generalizing m with
  | zero => exact ⟨Nat.le_refl _, Nat.le_refl _, hafter, hbefore⟩
  | succ k ih =>
    unfold monthFrom
    split
    · rename_i hlt
      exact ⟨Nat.le_refl _, Nat.le_add_right _ _, hafter, hlt⟩
    · rename_i hge
      have hsame : m + 1 + k + 1 = m + (k + 1) + 1 := by omega
      obtain ⟨hle, hle', hrest⟩ := @ih (m + 1) (by omega) (by rw [hsame]; exact hbefore)
      exact ⟨by omega, by omega, hrest⟩

/-- A date lies in its month. -/
theorem month_spec (d : Date) :
    1 ≤ d.month ∧ d.month ≤ 12 ∧
      daysBeforeMonth d.year d.month < d.ordinal - daysBeforeYear d.year ∧
      d.ordinal - daysBeforeYear d.year ≤ daysBeforeMonth d.year (d.month + 1) := by
  obtain ⟨hpos, hafter, hbefore⟩ := d.year_spec
  rw [daysBeforeYear_succ hpos, ← daysBeforeMonth_thirteen] at hbefore
  have hspec := @monthFrom_spec d.year (d.ordinal - 1 - daysBeforeYear d.year) 11 1 (Nat.zero_le _)
    (by show _ < daysBeforeMonth d.year 13; omega)
  unfold month
  omega

/-- The day counts from the first of the month. -/
theorem day_spec (d : Date) :
    1 ≤ d.day ∧ d.day ≤ daysInMonth d.year d.month ∧
      d.ordinal = daysBeforeYear d.year + daysBeforeMonth d.year d.month + d.day := by
  obtain ⟨-, hyear, -⟩ := d.year_spec
  obtain ⟨hpos, -, hafter, hbefore⟩ := d.month_spec
  rw [daysBeforeMonth_succ d.year hpos] at hbefore
  unfold day
  omega

/-! ## Dates by their fields -/

/-- Only one year, month and day have the ordinal of a date. -/
theorem fields_eq {d : Date} {y m n : ℕ} (hy : 1 ≤ y) (hm : 1 ≤ m ∧ m ≤ 12)
    (hn : 1 ≤ n ∧ n ≤ daysInMonth y m) (h : d.ordinal = daysBeforeYear y + daysBeforeMonth y m + n) :
    d.year = y ∧ d.month = m ∧ d.day = n := by
  have hnext := daysBeforeMonth_succ y hm.1
  have hyear : d.year = y := by
    have hend := daysBeforeMonth_mono y (show m + 1 ≤ 13 by omega)
    apply year_eq
    · omega
    · rw [daysBeforeYear_succ hy, ← daysBeforeMonth_thirteen]
      omega
  obtain ⟨hpos, -, hafter, hbefore⟩ := d.month_spec
  rw [hyear] at hafter hbefore
  have hmonth : d.month = m := by
    by_contra hne
    rcases Nat.lt_or_gt_of_ne hne with hlt | hgt
    · have hmono := daysBeforeMonth_mono y (show d.month + 1 ≤ m by omega)
      omega
    · have hmono := daysBeforeMonth_mono y (show m + 1 ≤ d.month by omega)
      omega
  obtain ⟨-, -, hday⟩ := d.day_spec
  rw [hyear, hmonth] at hday
  exact ⟨hyear, hmonth, by omega⟩

theorem ofOrdinal?_eq_some {d : Date} {n : ℤ} : ofOrdinal? n = some d ↔ (d.ordinal : ℤ) = n := by
  have hpos := d.inRange.1
  unfold ofOrdinal?
  constructor
  · intro h
    split at h
    · have hord : n.toNat = d.ordinal := congrArg Date.ordinal (Option.some.inj h)
      omega
    · cases h
  · intro h
    have hord : n.toNat = d.ordinal := by omega
    rw [dif_pos (by rw [hord]; exact d.inRange)]
    exact congrArg some (ext_ordinal hord)

theorem ofYmd?_eq_some {d : Date} {y m n : ℤ} :
    ofYmd? y m n = some d ↔ (d.year : ℤ) = y ∧ (d.month : ℤ) = m ∧ (d.day : ℤ) = n := by
  unfold ofYmd?
  constructor
  · intro h
    split at h
    · rename_i hrange
      rw [ofOrdinal?_eq_some] at h
      have hfields := @fields_eq d y.toNat m.toNat n.toNat (by omega) (by omega) (by omega) (by omega)
      omega
    · cases h
  · rintro ⟨rfl, rfl, rfl⟩
    have hyear := d.year_spec.1
    have hlate := d.year_le
    obtain ⟨hmonth, hmonth', -⟩ := d.month_spec
    obtain ⟨hday, hday', hordinal⟩ := d.day_spec
    simp only [Int.toNat_natCast]
    rw [if_pos (by omega), ofOrdinal?_eq_some]
    omega

/-- A later year is later. -/
theorem lt_of_year_lt {d e : Date} (h : d.year < e.year) : d < e := by
  have hmono := daysBeforeYear_mono (Nat.succ_le_of_lt h)
  have hend := d.year_spec.2.2
  have hstart := e.year_spec.2.1
  rw [Nat.succ_eq_add_one] at hmono
  rw [lt_def]
  omega

/-- A day that the month has is a date. -/
theorem exists_ofYmd? {y m n : ℕ} (hy : 1 ≤ y ∧ y ≤ 9999) (hm : 1 ≤ m ∧ m ≤ 12)
    (hn : 1 ≤ n ∧ n ≤ daysInMonth y m) : ∃ d, ofYmd? y m n = some d := by
  have hnext := daysBeforeMonth_succ y hm.1
  have hmonth := daysBeforeMonth_mono y (show m + 1 ≤ 13 by omega)
  have hyear := daysBeforeYear_mono (show y + 1 ≤ 10000 by omega)
  rw [daysBeforeYear_succ hy.1, ← daysBeforeMonth_thirteen, daysBeforeYear_max] at hyear
  refine ⟨⟨daysBeforeYear y + daysBeforeMonth y m + n, by omega⟩, ?_⟩
  unfold ofYmd?
  rw [if_pos (by simp only [Int.toNat_natCast]; omega), ofOrdinal?_eq_some]
  simp only [Int.toNat_natCast]
  omega

/-! ## Calendar months -/

/-- The months counted through, from January of year 0. -/
def monthIndex (d : Date) : ℕ := 12 * d.year + (d.month - 1)

/-- The length of a month by its index. -/
def monthLength (i : ℕ) : ℕ := daysInMonth (i / 12) (i % 12 + 1)

/-- The days before a month by its index. -/
def daysBeforeIndex (i : ℕ) : ℕ := daysBeforeYear (i / 12) + daysBeforeMonth (i / 12) (i % 12 + 1)

theorem daysBeforeIndex_succ {i : ℕ} (hi : 12 ≤ i) :
    daysBeforeIndex (i + 1) = daysBeforeIndex i + monthLength i := by
  have hnext := daysBeforeMonth_succ (i / 12) (show 1 ≤ i % 12 + 1 by omega)
  unfold daysBeforeIndex monthLength
  by_cases hyear : i % 12 = 11
  · have hdiv : (i + 1) / 12 = i / 12 + 1 := by omega
    have hmod : (i + 1) % 12 = 0 := by omega
    have hlast : i % 12 + 1 + 1 = 13 := by omega
    rw [hlast] at hnext
    rw [hdiv, hmod, daysBeforeYear_succ (by omega), ← daysBeforeMonth_thirteen]
    show _ + 0 = _
    omega
  · have hdiv : (i + 1) / 12 = i / 12 := by omega
    have hmod : (i + 1) % 12 = i % 12 + 1 := by omega
    rw [hdiv, hmod, hnext]
    omega

theorem daysBeforeIndex_mono {i j : ℕ} (hi : 12 ≤ i) (hij : i ≤ j) :
    daysBeforeIndex i ≤ daysBeforeIndex j := by
  induction j, hij using Nat.le_induction with
  | base => exact Nat.le_refl _
  | succ j hij ih =>
    rw [daysBeforeIndex_succ (by omega)]
    omega

theorem monthIndex_spec (d : Date) :
    12 ≤ d.monthIndex ∧ d.monthIndex / 12 = d.year ∧ d.monthIndex % 12 + 1 = d.month := by
  have hyear := d.year_spec.1
  obtain ⟨hmonth, hmonth', -⟩ := d.month_spec
  unfold monthIndex
  omega

theorem ordinal_eq (d : Date) : d.ordinal = daysBeforeIndex d.monthIndex + d.day := by
  obtain ⟨-, hyear, hmonth⟩ := d.monthIndex_spec
  rw [daysBeforeIndex, hyear, hmonth]
  exact d.day_spec.2.2

theorem day_le (d : Date) : d.day ≤ monthLength d.monthIndex := by
  obtain ⟨-, hyear, hmonth⟩ := d.monthIndex_spec
  rw [monthLength, hyear, hmonth]
  exact d.day_spec.2.1

/-- A date of an earlier month is earlier. -/
theorem lt_of_monthIndex_lt {d e : Date} (h : d.monthIndex < e.monthIndex) : d < e := by
  have hd := d.monthIndex_spec.1
  have hmono := daysBeforeIndex_mono (show 12 ≤ d.monthIndex + 1 by omega) (Nat.succ_le_of_lt h)
  have hday := d.day_le
  have hpos := e.day_spec.1
  rw [daysBeforeIndex_succ hd] at hmono
  rw [lt_def, d.ordinal_eq, e.ordinal_eq]
  omega

theorem addMonths?_eq_some {d e : Date} {n : ℕ} :
    d.addMonths? n = some e ↔
      e.monthIndex = d.monthIndex + n ∧ e.day = min d.day (monthLength (d.monthIndex + n)) := by
  obtain ⟨-, hyear, hmonth⟩ := d.monthIndex_spec
  obtain ⟨-, hyear', hmonth'⟩ := e.monthIndex_spec
  have hfirst := e.year_spec.1
  have hlate := e.year_le
  have hmod : ((d.month : ℤ) - 1 + n).fmod 12 + 1 = ((d.monthIndex + n) % 12 + 1 : ℕ) := by
    rw [Int.fmod_eq_emod_of_nonneg _ (by omega)]
    omega
  have hdiv : (d.year : ℤ) + ((d.month : ℤ) - 1 + n).fdiv 12 = ((d.monthIndex + n) / 12 : ℕ) := by
    rw [Int.fdiv_eq_ediv_of_nonneg _ (by omega)]
    omega
  unfold addMonths? monthLength
  dsimp only
  rw [hdiv, hmod]
  simp only [Int.toNat_natCast]
  constructor
  · intro h
    split at h
    · cases h
    · rw [ofYmd?_eq_some] at h
      omega
  · rintro ⟨hindex, hday⟩
    rw [if_neg (by omega), ofYmd?_eq_some]
    omega

/-! ## Dates as text -/

/-- What stands before the first separator, and what stands after it. -/
theorem append_separator_inj {α : Type} {c : α} {xs ys zs ws : List α} (hxs : c ∉ xs) (hys : c ∉ ys)
    (h : xs ++ c :: zs = ys ++ c :: ws) : xs = ys ∧ zs = ws := by
  induction xs generalizing ys with
  | nil =>
    cases ys with
    | nil => exact ⟨rfl, (List.cons.inj h).2⟩
    | cons y ys => exact absurd ((List.cons.inj h).1 ▸ List.mem_cons_self) hys
  | cons x xs ih =>
    cases ys with
    | nil => exact absurd ((List.cons.inj h).1 ▸ List.mem_cons_self) hxs
    | cons y ys =>
      rw [List.mem_cons, not_or] at hxs hys
      obtain ⟨hhead, htail⟩ := List.cons.inj h
      obtain ⟨hinit, hrest⟩ := ih hxs.2 hys.2 htail
      exact ⟨by rw [hhead, hinit], hrest⟩

theorem toList_pad (width n : ℕ) :
    (pad width n).toList =
      List.replicate (width - (toString n).length) '0' ++ Nat.toDigits 10 n := by
  unfold pad
  rw [String.toList_append, String.toList_ofList]
  simp

theorem dash_notMem_digits (n : ℕ) : '-' ∉ Nat.toDigits 10 n := by
  intro hmem
  have hdigit : '-'.isDigit = true := Nat.isDigit_of_mem_toDigits (by decide) (by decide) hmem
  exact absurd hdigit (by decide)

theorem dash_notMem_pad (width n : ℕ) : '-' ∉ (pad width n).toList := by
  rw [toList_pad, List.mem_append, not_or]
  refine ⟨?_, dash_notMem_digits n⟩
  intro hmem
  exact absurd (List.eq_of_mem_replicate hmem) (by decide)

theorem pad_inj {width m n : ℕ} (h : (pad width m).toList = (pad width n).toList) : m = n := by
  have hvalue : ∀ k, Nat.ofDigitChars 10 (pad width k).toList 0 = k := by
    intro k
    rw [toList_pad, Nat.ofDigitChars_append, Nat.ofDigitChars_replicate_zero, Nat.mul_zero,
      Nat.ofDigitChars_ten_toDigits]
  rw [← hvalue m, ← hvalue n, h]

/-- No two dates are written alike. -/
theorem isoformat_inj {d e : Date} (h : d.isoformat = e.isoformat) : d = e := by
  have hparts : ∀ d : Date, d.isoformat.toList = (pad 4 d.year).toList ++ '-' ::
      ((pad 2 d.month).toList ++ '-' :: (pad 2 d.day).toList) := by
    intro d
    simp [isoformat, String.toList_append]
  have hchars := congrArg String.toList h
  rw [hparts d, hparts e] at hchars
  obtain ⟨hyear, hrest⟩ := append_separator_inj (dash_notMem_pad _ _) (dash_notMem_pad _ _) hchars
  obtain ⟨hmonth, hday⟩ := append_separator_inj (dash_notMem_pad _ _) (dash_notMem_pad _ _) hrest
  have hd := d.day_spec.2.2
  have he := e.day_spec.2.2
  rw [pad_inj hyear, pad_inj hmonth, pad_inj hday] at hd
  exact ext_ordinal (hd.trans he.symm)

end SaccoPlatform.Lib.Date
