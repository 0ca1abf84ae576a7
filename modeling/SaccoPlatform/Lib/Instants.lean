import SaccoPlatform.Lib.Calendar
import Mathlib.Tactic.Linarith
import Mathlib.Tactic.Ring

/-!
# Instants and days

Instants are counted in microseconds, on the same scale as the ordinals of dates: midnight of a
date is its ordinal in days. A day is the half-open span from its midnight to the next one, so the
spans of consecutive days meet without a gap and without an instant in common.
-/

namespace SaccoPlatform.Lib

/-- A `TIMESTAMP WITH TIME ZONE`, in microseconds. -/
abbrev Instant := ℤ

def microsPerDay : ℤ := 86400000000

namespace Date

/-- `datetime(d.year, d.month, d.day, tzinfo=UTC)`. -/
def midnight (d : Date) : Instant := d.ordinal * microsPerDay

/-- `datetime(d.year, d.month, d.day, tzinfo=UTC) + timedelta(days=1)`; the last day of the
calendar has no next midnight. -/
def nextMidnight? (d : Date) : Option Instant := (d.addDays? 1).map midnight

theorem nextMidnight?_eq_some {d : Date} {i : Instant} :
    d.nextMidnight? = some i ↔ d.ordinal < maxOrdinal ∧ i = d.midnight + microsPerDay := by
  unfold nextMidnight?
  rw [Option.map_eq_some_iff]
  constructor
  · rintro ⟨e, he, rfl⟩
    rw [addDays?_eq_some] at he
    have hrange := e.inRange
    refine ⟨by omega, ?_⟩
    unfold midnight
    rw [he]
    ring
  · rintro ⟨hlt, rfl⟩
    have hrange := d.inRange
    refine ⟨⟨d.ordinal + 1, by omega, by omega⟩, ?_, ?_⟩
    · rw [addDays?_eq_some]
      show ((d.ordinal + 1 : ℕ) : ℤ) = d.ordinal + 1
      push_cast
      rfl
    · show ((d.ordinal + 1 : ℕ) : ℤ) * microsPerDay = d.ordinal * microsPerDay + microsPerDay
      push_cast
      ring

/-- The next day begins where a day ends. -/
theorem midnight_succ {d e : Date} (h : d.addDays? 1 = some e) :
    e.midnight = d.midnight + microsPerDay := by
  rw [addDays?_eq_some] at h
  unfold midnight
  rw [h]
  ring

/-- A later day begins when an earlier one is over. -/
theorem midnight_of_lt {d e : Date} (h : d < e) : d.midnight + microsPerDay ≤ e.midnight := by
  have hord : (d.ordinal : ℤ) + 1 ≤ e.ordinal := by
    rw [lt_def] at h
    omega
  have hmul : ((d.ordinal : ℤ) + 1) * microsPerDay ≤ e.ordinal * microsPerDay :=
    mul_le_mul_of_nonneg_right hord (by decide)
  unfold midnight
  linarith

theorem midnight_mono {d e : Date} (h : d ≤ e) : d.midnight ≤ e.midnight := by
  have hord : (d.ordinal : ℤ) ≤ e.ordinal := by
    rw [le_def] at h
    omega
  exact mul_le_mul_of_nonneg_right hord (by decide)

end Date

end SaccoPlatform.Lib
