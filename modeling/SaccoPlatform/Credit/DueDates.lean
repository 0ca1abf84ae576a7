import SaccoPlatform.Credit.Schedule
import SaccoPlatform.Lib.CalendarFields

/-!
# Due dates

`_due_dates` goes from each due date to the next. `_add_months` keeps the day of the date it is
given, where the month is long enough, and that date may have lost its day already: once a short
month has cut the day of disbursement, all later due dates are cut, too.
-/

namespace SaccoPlatform

open Lib

/-- The months from one due date to the next; none for the frequencies that count weeks. -/
def monthsOf : RepaymentFrequency → Option ℕ
  | .monthly => some 1
  | .quarterly => some 3
  | _ => none

theorem addMonths_ok {d e : Date} {k : ℕ} : addMonths d k = .ok e ↔ d.addMonths? k = some e := by
  unfold addMonths
  cases hadd : d.addMonths? k with
  | none => simp [throw, throwThe, MonadExceptOf.throw]
  | some d' =>
    simp only [pure, Except.pure, Except.ok.injEq, Option.some.injEq]

theorem nextDueDate_of_months {f : RepaymentFrequency} {k : ℕ} (hk : monthsOf f = some k) (d : Date) :
    nextDueDate d f = addMonths d k := by
  cases f
  case monthly =>
    cases hk
    rfl
  case quarterly =>
    cases hk
    rfl
  all_goals cases hk

/-- Every frequency goes forward. -/
theorem lt_nextDueDate {f : RepaymentFrequency} {d e : Date} (h : nextDueDate d f = .ok e) : d < e := by
  have hweeks : ∀ w : ℤ, 0 < w → addWeeks d w = .ok e → d < e := by
    intro w hw hok
    unfold addWeeks at hok
    cases hadd : d.addDays? (7 * w) with
    | none =>
      rw [hadd] at hok
      cases hok
    | some d' =>
      rw [hadd] at hok
      cases hok
      rw [Date.addDays?_eq_some] at hadd
      rw [Date.lt_def]
      omega
  have hmonths : ∀ k : ℕ, 0 < k → addMonths d k = .ok e → d < e := by
    intro k hk hok
    obtain ⟨hindex, -⟩ := Date.addMonths?_eq_some.mp (addMonths_ok.mp hok)
    apply Date.lt_of_monthIndex_lt
    omega
  cases f with
  | weekly => exact hweeks 1 (by omega) h
  | biweekly => exact hweeks 2 (by omega) h
  | monthly => exact hmonths 1 (by omega) h
  | quarterly => exact hmonths 3 (by omega) h
  | lumpSum => cases h

/-- One round of the loop. -/
theorem dueDates_succ {f : RepaymentFrequency} {n : ℕ} {d : Date} {dates : List Date}
    (h : dueDates f (n + 1) d = .ok dates) :
    ∃ next rest, nextDueDate d f = .ok next ∧ dueDates f n next = .ok rest ∧ dates = next :: rest := by
  rw [dueDates] at h
  cases hnext : nextDueDate d f with
  | error e =>
    rw [hnext] at h
    cases h
  | ok next =>
    rw [hnext] at h
    change (dueDates f n next >>= fun rest => pure (next :: rest)) = .ok dates at h
    cases hrest : dueDates f n next with
    | error e =>
      rw [hrest] at h
      cases h
    | ok rest =>
      rw [hrest] at h
      cases h
      exact ⟨next, rest, rfl, hrest, rfl⟩

/-- The due dates increase, from the disbursement on. -/
theorem dueDates_increasing {f : RepaymentFrequency} {n : ℕ} {d : Date} {dates : List Date}
    (h : dueDates f n d = .ok dates) : (d :: dates).Pairwise (· < ·) := by
  induction n generalizing d dates with
  | zero =>
    cases h
    exact List.pairwise_singleton _ _
  | succ n ih =>
    obtain ⟨next, rest, hnext, hrest, rfl⟩ := dueDates_succ h
    have hlater := ih hrest
    have hlt := lt_nextDueDate hnext
    rw [List.pairwise_cons]
    refine ⟨?_, hlater⟩
    intro e he
    rcases List.mem_cons.mp he with rfl | he
    · exact hlt
    · have hafter := (List.pairwise_cons.mp hlater).1 e he
      rw [Date.lt_def] at hlt hafter ⊢
      omega

/-! ## The day of a due date -/

/-- The day that is left after `i` periods of `k` months. -/
def clampedDay (d : Date) (k : ℕ) : ℕ → ℕ
  | 0 => d.day
  | i + 1 => min (clampedDay d k i) (Date.monthLength (d.monthIndex + (i + 1) * k))

theorem le_clampedDay {d : Date} {k i x : ℕ} :
    x ≤ clampedDay d k i ↔
      x ≤ d.day ∧ ∀ j, 1 ≤ j → j ≤ i → x ≤ Date.monthLength (d.monthIndex + j * k) := by
  induction i with
  | zero =>
    constructor
    · intro h
      exact ⟨h, fun j hj hj' => by omega⟩
    · intro h
      exact h.1
  | succ i ih =>
    rw [clampedDay, le_min_iff, ih]
    constructor
    · rintro ⟨⟨hday, hearlier⟩, hlast⟩
      refine ⟨hday, ?_⟩
      intro j hj hj'
      rcases Nat.lt_or_ge j (i + 1) with hlt | hge
      · exact hearlier j hj (by omega)
      · obtain rfl : j = i + 1 := by omega
        exact hlast
    · rintro ⟨hday, hall⟩
      exact ⟨⟨hday, fun j hj hj' => hall j hj (by omega)⟩, hall (i + 1) (by omega) (by omega)⟩

/-- From the next due date on, one period less is to go. -/
theorem clampedDay_next {d e : Date} {k : ℕ} (h : d.addMonths? k = some e) (i : ℕ) :
    clampedDay e k i = clampedDay d k (i + 1) := by
  obtain ⟨hindex, hday⟩ := Date.addMonths?_eq_some.mp h
  induction i with
  | zero =>
    show e.day = min d.day (Date.monthLength (d.monthIndex + (0 + 1) * k))
    rw [hday, Nat.zero_add, Nat.one_mul]
  | succ i ih =>
    have hsame : e.monthIndex + (i + 1) * k = d.monthIndex + (i + 1 + 1) * k := by
      rw [hindex]
      ring
    rw [clampedDay, ih, hsame]
    rfl

/-- The month and the day of every due date. -/
theorem dueDates_fields {f : RepaymentFrequency} {k n : ℕ} (hk : monthsOf f = some k) {d : Date}
    {dates : List Date} (h : dueDates f n d = .ok dates) {i : ℕ} {e : Date} (he : dates[i]? = some e) :
    e.monthIndex = d.monthIndex + (i + 1) * k ∧ e.day = clampedDay d k (i + 1) := by
  induction n generalizing d dates i with
  | zero =>
    cases h
    cases he
  | succ n ih =>
    obtain ⟨next, rest, hnext, hrest, rfl⟩ := dueDates_succ h
    rw [nextDueDate_of_months hk, addMonths_ok] at hnext
    obtain ⟨hindex, hday⟩ := Date.addMonths?_eq_some.mp hnext
    cases i with
    | zero =>
      cases he
      rw [← clampedDay_next hnext]
      exact ⟨by omega, rfl⟩
    | succ i =>
      obtain ⟨hlater, hlaterDay⟩ := ih hrest he
      rw [clampedDay_next hnext] at hlaterDay
      refine ⟨?_, hlaterDay⟩
      rw [hlater, hindex]
      ring

/-- The `i`-th due date is the date of disbursement advanced by `i` periods exactly when no due month
before it is shorter than the day it then has. And the due dates increase, whatever the
frequency. -/
theorem due_dates_advance_iff {f : RepaymentFrequency} {n : ℕ} {d : Date} {dates : List Date}
    (h : dueDates f n d = .ok dates) :
    (∀ k, monthsOf f = some k → ∀ i e, dates[i]? = some e →
      (d.addMonths? ((i + 1) * k : ℕ) = some e ↔
        ∀ j, 1 ≤ j → j ≤ i →
          min d.day (Date.monthLength (d.monthIndex + (i + 1) * k)) ≤
            Date.monthLength (d.monthIndex + j * k))) ∧
      dates.Pairwise (· < ·) := by
  refine ⟨?_, (List.pairwise_cons.mp (dueDates_increasing h)).2⟩
  intro k hk i e he
  obtain ⟨hindex, hday⟩ := dueDates_fields hk h he
  rw [Date.addMonths?_eq_some, and_iff_right hindex, hday, clampedDay]
  constructor
  · intro hsame j hj hj'
    have hle : min d.day (Date.monthLength (d.monthIndex + (i + 1) * k)) ≤ clampedDay d k i := by
      rw [← hsame]
      exact min_le_left _ _
    exact (le_clampedDay.mp hle).2 j hj hj'
  · intro hlong
    have hupper : clampedDay d k i ≤ d.day := (le_clampedDay.mp le_rfl).1
    have hlower : min d.day (Date.monthLength (d.monthIndex + (i + 1) * k)) ≤ clampedDay d k i :=
      le_clampedDay.mpr ⟨min_le_left _ _, hlong⟩
    omega

/-- 15 January 2026. -/
def midJanuary : Date := ⟨739631, by decide⟩

/-- 31 January 2026. -/
def endOfJanuary : Date := .ofOrdinal 739647

/-- A loan disbursed in the middle of a month falls due in the middle of the months. -/
theorem due_dates_advance_mid_month :
    ∃ dates, dueDates .monthly 2 midJanuary = .ok dates ∧
      midJanuary.addMonths? 2 = dates[1]? ∧ dates.Pairwise (· < ·) := by
  have h : dueDates .monthly 2 midJanuary = .ok [⟨739662, by decide⟩, ⟨739690, by decide⟩] := by
    decide +kernel
  have hboth := due_dates_advance_iff h
  refine ⟨_, h, ?_, hboth.2⟩
  apply (hboth.1 1 rfl 1 _ rfl).mpr
  intro j hj hj'
  obtain rfl : j = 1 := by omega
  decide +kernel

/-- A loan disbursed on 31 January falls due on 28 March, not on the 31st. -/
theorem march_due_date_loses_day :
    ∃ due, dueDates .monthly 2 endOfJanuary = .ok [⟨739675, by decide⟩, due] ∧
      due.month = 3 ∧ due.day = 28 ∧
      ∃ e, addMonths endOfJanuary 2 = .ok e ∧ e.month = 3 ∧ e.day = 31 ∧ due ≠ e := by
  refine ⟨⟨739703, by decide⟩, by decide +kernel, by decide +kernel, by decide +kernel, ?_⟩
  refine ⟨⟨739706, by decide⟩, by decide +kernel, by decide +kernel, by decide +kernel, by decide⟩

end SaccoPlatform
