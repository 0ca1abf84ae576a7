import Mathlib.Data.Nat.Basic
import Mathlib.Tactic.Common

/-!
# Calendar dates

Dates of the proleptic Gregorian calendar, from 0001-01-01 to 9999-12-31, counted by their
ordinal (0001-01-01 is day 1). Arithmetic that leaves the range fails, as the host
language's `date` does.
-/

namespace SaccoPlatform.Lib

/-- The ordinal of 9999-12-31. -/
def maxOrdinal : ℕ := 3652059

/-- A calendar date, by its ordinal. -/
structure Date where
  ordinal : ℕ
  inRange : 1 ≤ ordinal ∧ ordinal ≤ maxOrdinal
deriving DecidableEq

namespace Date

instance : LE Date := ⟨fun a b => a.ordinal ≤ b.ordinal⟩
instance : LT Date := ⟨fun a b => a.ordinal < b.ordinal⟩
instance (a b : Date) : Decidable (a ≤ b) := inferInstanceAs (Decidable (a.ordinal ≤ b.ordinal))
instance (a b : Date) : Decidable (a < b) := inferInstanceAs (Decidable (a.ordinal < b.ordinal))

theorem le_def {a b : Date} : a ≤ b ↔ a.ordinal ≤ b.ordinal := Iff.rfl
theorem lt_def {a b : Date} : a < b ↔ a.ordinal < b.ordinal := Iff.rfl

def ofOrdinal? (n : ℤ) : Option Date :=
  if h : 1 ≤ n.toNat ∧ n.toNat ≤ maxOrdinal then some ⟨n.toNat, h⟩ else none

/-- The date with this ordinal. What is the ordinal of none gives the first day. -/
def ofOrdinal (n : ℕ) : Date := (ofOrdinal? n).getD ⟨1, by decide⟩

def isLeap (year : ℕ) : Bool := year % 4 = 0 && (year % 100 ≠ 0 || year % 400 = 0)

def daysInMonth (year month : ℕ) : ℕ :=
  if month = 2 then (if isLeap year then 29 else 28)
  else if month = 4 ∨ month = 6 ∨ month = 9 ∨ month = 11 then 30
  else 31

/-- Days before 1 January of `year`. -/
def daysBeforeYear (year : ℕ) : ℕ :=
  let y := year - 1
  y * 365 + y / 4 - y / 100 + y / 400

/-- Days of `year` before the first of `month`. -/
def daysBeforeMonth (year : ℕ) : ℕ → ℕ
  | 0 => 0
  | 1 => 0
  | month + 2 => daysBeforeMonth year (month + 1) + daysInMonth year (month + 1)

/-- The date `year-month-day`, when there is one. -/
def ofYmd? (year month day : ℤ) : Option Date :=
  if 1 ≤ year ∧ year ≤ 9999 ∧ 1 ≤ month ∧ month ≤ 12 ∧ 1 ≤ day ∧
      day ≤ daysInMonth year.toNat month.toNat then
    ofOrdinal? (daysBeforeYear year.toNat + daysBeforeMonth year.toNat month.toNat + day)
  else none

/-- The year of a date: count the 400-, 100-, 4- and 1-year cycles before it. -/
def year (d : Date) : ℕ :=
  let n := d.ordinal - 1
  let n400 := n / 146097
  let n := n % 146097
  let n100 := n / 36524
  let n := n % 36524
  let n4 := n / 1461
  let n := n % 1461
  let n1 := n / 365
  let y := n400 * 400 + n100 * 100 + n4 * 4 + n1 + 1
  if n1 = 4 ∨ n100 = 4 then y - 1 else y

/-- The month of the `n`-th day (from 0) of `year`, searched from month `m` on. -/
def monthFrom (year n : ℕ) : ℕ → ℕ → ℕ
  | 0, m => m
  | k + 1, m => if n < daysBeforeMonth year (m + 1) then m else monthFrom year n k (m + 1)

def month (d : Date) : ℕ :=
  monthFrom d.year (d.ordinal - 1 - daysBeforeYear d.year) 11 1

def day (d : Date) : ℕ :=
  d.ordinal - daysBeforeYear d.year - daysBeforeMonth d.year d.month

/-- `d + timedelta(days=n)`. -/
def addDays? (d : Date) (n : ℤ) : Option Date := ofOrdinal? (d.ordinal + n)

theorem ext_ordinal {a b : Date} (h : a.ordinal = b.ordinal) : a = b := by
  cases a
  cases b
  cases h
  rfl

theorem ne_of_lt {a b : Date} (h : a < b) : a ≠ b := by
  rintro rfl
  exact absurd h (Nat.lt_irrefl a.ordinal)

theorem eq_or_lt_of_not_lt {a b : Date} (h : ¬ a < b) : a = b ∨ b < a := by
  rw [lt_def] at h
  rcases Nat.eq_or_lt_of_not_lt h with heq | hlt
  · exact .inl (ext_ordinal heq)
  · exact .inr hlt

theorem addDays?_eq_some {d e : Date} {n : ℤ} :
    d.addDays? n = some e ↔ (e.ordinal : ℤ) = d.ordinal + n := by
  have hpos := e.inRange
  unfold addDays? ofOrdinal?
  constructor
  · intro h
    split at h
    · rename_i hrange
      have hord : (d.ordinal + n).toNat = e.ordinal := congrArg Date.ordinal (Option.some.inj h)
      omega
    · cases h
  · intro h
    have hord : (d.ordinal + n).toNat = e.ordinal := by omega
    rw [dif_pos (by omega)]
    exact congrArg some (ext_ordinal hord)

theorem le_max_of_addDays? {d e : Date} {n : ℕ} (h : d.addDays? n = some e) :
    e.ordinal = d.ordinal + n ∧ d.ordinal + n ≤ maxOrdinal := by
  rw [addDays?_eq_some] at h
  have he := e.inRange
  omega

/-- Only the end of the calendar is in the way. -/
theorem max_lt_of_addDays? {d : Date} {n : ℕ} (h : d.addDays? n = none) :
    maxOrdinal < d.ordinal + n := by
  by_contra hle
  have hd := d.inRange
  have hsome : d.addDays? n = some ⟨d.ordinal + n, by omega, by omega⟩ :=
    addDays?_eq_some.mpr (by simp)
  rw [hsome] at h
  cases h

/-- A shorter step forward stays in the calendar. -/
theorem addDays?_of_le {d e : Date} {m n : ℤ} (h : d.addDays? n = some e) (hm : 0 ≤ m) (hmn : m ≤ n) :
    ∃ e', d.addDays? m = some e' := by
  rw [addDays?_eq_some] at h
  have hd := d.inRange
  have he := e.inRange
  refine ⟨⟨(d.ordinal + m).toNat, by omega, by omega⟩, ?_⟩
  rw [addDays?_eq_some]
  show ((d.ordinal + m).toNat : ℤ) = _
  omega

/-- `d` moved by `n` calendar months, the day clamped to the length of the new month. -/
def addMonths? (d : Date) (n : ℤ) : Option Date :=
  let m : ℤ := d.month - 1 + n
  let year := d.year + m.fdiv 12
  let month := m.fmod 12 + 1
  if year < 1 ∨ 9999 < year then none
  else ofYmd? year month (min d.day (daysInMonth year.toNat month.toNat))

/-- Decimal digits with leading zeros up to `width`. -/
def pad (width n : ℕ) : String :=
  let s := toString n
  String.ofList (List.replicate (width - s.length) '0') ++ s

/-- `YYYY-MM-DD`. -/
def isoformat (d : Date) : String := pad 4 d.year ++ "-" ++ pad 2 d.month ++ "-" ++ pad 2 d.day

/-- `YYYYMM`. -/
def yearMonth (d : Date) : String := pad 4 d.year ++ pad 2 d.month

example : (ofYmd? 2024 1 31).bind (addMonths? · 1) = ofYmd? 2024 2 29 := by decide +kernel

end Date

end SaccoPlatform.Lib
