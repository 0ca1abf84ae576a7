import SaccoPlatform.Lib.CalendarFields
import SaccoPlatform.Lib.DecimalContext
import SaccoPlatform.Lib.Grouping

/-!
# Month series

The helpers of the dashboards (`app/core/month_series.py`). The cumulative series is computed backwards:
it begins with the total of now and takes off the movement of one month after the other. So it states for
each month what was moved until then, unless the decimal context rounds on the way.
-/

namespace SaccoPlatform

open Lib

/-! ## The helpers -/

/-- The format `0wd` of an integer: the sign counts as a digit. -/
def zeroPadded (width : ℕ) (n : ℤ) : String :=
  if n < 0 then "-" ++ Date.pad (width - 1) n.natAbs else Date.pad width n.natAbs

/-- `f"{year:04d}-{month:02d}"`. -/
def monthKey (year month : ℤ) : String := zeroPadded 4 year ++ "-" ++ zeroPadded 2 month

/-- The loop of `month_keys`, newest month first. -/
def monthKeysBack : ℕ → ℤ → ℤ → List String
  | 0, _, _ => []
  | n + 1, year, month =>
    monthKey year month ::
      if month - 1 = 0 then monthKeysBack n (year - 1) 12 else monthKeysBack n year (month - 1)

/-- `month_keys`; `range` of a negative number is empty. -/
def monthKeys (n : ℤ) (today : Date) : List String := (monthKeysBack n.toNat today.year today.month).reverse

/-- A `dict` from month keys to movements. -/
abbrev Movements := Keyed (Prod.fst : String × ℚ → String)

/-- `movements.get(key, Decimal("0"))`. -/
def Movements.get (movements : Movements) (key : String) : ℚ :=
  ((Keyed.get? movements key).map (·.2)).getD 0

/-- `as_flow`. -/
def asFlow (movements : Movements) (n : ℤ) (today : Date) : List (String × ℚ) :=
  (monthKeys n today).map fun key => (key, movements.get key)

/-- The loop of `as_cumulative`; a difference is kept with 28 digits. -/
def balancesBack (movements : Movements) : List String → ℚ → List (String × ℚ)
  | [], _ => []
  | key :: keys, running =>
    (key, running) :: balancesBack movements keys (inContext 28 (running - movements.get key))

/-- `as_cumulative`. -/
def asCumulative (movements : Movements) (n : ℤ) (today : Date) (currentTotal : ℚ) : List (String × ℚ) :=
  (balancesBack movements (monthKeys n today).reverse currentTotal).reverse

/-! ## Months counted through -/

/-- The key of a month by its index, counted from January of year 0. -/
def keyOf (i : ℤ) : String := monthKey (i / 12) (i % 12 + 1)

/-- The `n` months that end with the month `last`, oldest first. -/
def lastMonths (n : ℕ) (last : ℤ) : List ℤ := (List.range n).map fun k : ℕ => last - n + 1 + (k : ℤ)

theorem lastMonths_succ (n : ℕ) (last : ℤ) : lastMonths (n + 1) last = lastMonths n (last - 1) ++ [last] := by
  unfold lastMonths
  rw [List.range_succ, List.map_append, List.map_singleton]
  congr 1
  · apply List.map_congr_left
    intro k _
    push_cast
    omega
  · push_cast
    congr 1
    omega

theorem mem_lastMonths {n : ℕ} {last i : ℤ} : i ∈ lastMonths n last ↔ last - n < i ∧ i ≤ last := by
  simp only [lastMonths, List.mem_map, List.mem_range]
  constructor
  · rintro ⟨k, hk, rfl⟩
    omega
  · intro h
    exact ⟨(i - (last - n + 1)).toNat, by omega, by omega⟩

theorem lastMonths_nodup (n : ℕ) (last : ℤ) : (lastMonths n last).Nodup := by
  refine List.Nodup.map ?_ List.nodup_range
  intro j k h
  have h' : last - n + 1 + (j : ℤ) = last - n + 1 + k := h
  omega

theorem dash_notMem_zeroPadded {width : ℕ} {n : ℤ} (hn : 0 ≤ n) : '-' ∉ (zeroPadded width n).toList := by
  rw [zeroPadded, if_neg (by omega)]
  exact Date.dash_notMem_pad width n.natAbs

/-- The sign of a number is written, so no two are written alike. -/
theorem zeroPadded_inj {width : ℕ} {m n : ℤ}
    (h : (zeroPadded width m).toList = (zeroPadded width n).toList) : m = n := by
  have hsigned : ∀ {a b : ℤ}, a < 0 → 0 ≤ b → (zeroPadded width a).toList ≠ (zeroPadded width b).toList := by
    intro a b ha hb heq
    apply @dash_notMem_zeroPadded width b hb
    rw [← heq, zeroPadded, if_pos ha, String.toList_append]
    exact List.mem_append_left _ (by decide)
  by_cases hm : m < 0
  · by_cases hn : n < 0
    · rw [zeroPadded, if_pos hm, zeroPadded, if_pos hn, String.toList_append, String.toList_append] at h
      have hpad := Date.pad_inj (List.append_cancel_left h)
      omega
    · exact absurd h (hsigned hm (by omega))
  · by_cases hn : n < 0
    · exact absurd h.symm (hsigned hn (by omega))
    · rw [zeroPadded, if_neg hm, zeroPadded, if_neg hn] at h
      have hpad := Date.pad_inj h
      omega

/-- No two months have one key. -/
theorem keyOf_inj {i j : ℤ} (h : keyOf i = keyOf j) : i = j := by
  have hparts : ∀ k, (keyOf k).toList.reverse = (zeroPadded 2 (k % 12 + 1)).toList.reverse ++
      '-' :: (zeroPadded 4 (k / 12)).toList.reverse := by
    intro k
    simp [keyOf, monthKey, String.toList_append]
  have hdash : ∀ k : ℤ, '-' ∉ (zeroPadded 2 (k % 12 + 1)).toList.reverse := by
    intro k
    rw [List.mem_reverse]
    exact dash_notMem_zeroPadded (by omega)
  have hchars := congrArg (fun s : String => s.toList.reverse) h
  simp only [hparts] at hchars
  obtain ⟨hmonth, hyear⟩ := Date.append_separator_inj (hdash i) (hdash j) hchars
  have hmonth' := zeroPadded_inj (List.reverse_inj.mp hmonth)
  have hyear' := zeroPadded_inj (List.reverse_inj.mp hyear)
  omega

/-- The loop counts the months down. -/
theorem reverse_monthKeysBack (n : ℕ) {year month : ℤ} (hmonth : 1 ≤ month ∧ month ≤ 12) :
    (monthKeysBack n year month).reverse = (lastMonths n (12 * year + month - 1)).map keyOf := by
  induction n generalizing year month with
  | zero => rfl
  | succ n ih =>
    have hkey : keyOf (12 * year + month - 1) = monthKey year month := by
      unfold keyOf
      congr 1
      · omega
      · omega
    rw [monthKeysBack, List.reverse_cons, lastMonths_succ, List.map_append, List.map_singleton, hkey]
    split
    · rw [ih (by omega)]
      congr 3
      omega
    · rw [ih (by omega)]
      congr 3
      omega

theorem monthKeys_eq (n : ℤ) (today : Date) :
    monthKeys n today = (lastMonths n.toNat today.monthIndex).map keyOf := by
  obtain ⟨-, hyear, hmonth⟩ := today.monthIndex_spec
  rw [monthKeys, reverse_monthKeysBack _ (by omega)]
  congr 2
  omega

/-! ## Movements by month -/

/-- A map of monthly movements: its months are counted through. -/
abbrev MonthlyMovements := Keyed (Prod.fst : ℤ × ℚ → ℤ)

/-- The `dict` of these movements. -/
def MonthlyMovements.dict (ms : MonthlyMovements) : Movements where
  rows := ms.rows.map fun r => (keyOf r.1, r.2)
  nodup := by
    rw [List.map_map]
    have hnodup := ms.nodup.map (fun i j h => keyOf_inj h : Function.Injective keyOf)
    rwa [List.map_map] at hnodup

/-- All that was moved up to and including a month. -/
def MonthlyMovements.upTo (ms : MonthlyMovements) (i : ℤ) : ℚ := sumWhere (·.1 ≤ i) (·.2) ms.rows

/-- What the dictionary has under the key of a month is what was moved in the month. -/
theorem get_dict (ms : MonthlyMovements) (i : ℤ) :
    ms.dict.get (keyOf i) = sumWhere (·.1 = i) (·.2) ms.rows := by
  have hfind : Keyed.get? ms.dict (keyOf i) = (Keyed.get? ms i).map fun r => (keyOf r.1, r.2) := by
    show ((ms.rows.map _).find? _) = (ms.rows.find? _).map _
    rw [List.find?_map]
    congr 2
    funext r
    exact decide_eq_decide.mpr ⟨fun h => keyOf_inj h, fun h => congrArg keyOf h⟩
  rw [Movements.get, hfind, sumWhere, Keyed.filter_key]
  cases Keyed.get? ms i with
  | none => rfl
  | some r => simp

theorem upTo_sub (ms : MonthlyMovements) (i : ℤ) :
    ms.upTo i - ms.dict.get (keyOf i) = ms.upTo (i - 1) := by
  have hsplit : ms.upTo i = ms.upTo (i - 1) + sumWhere (·.1 = i) (·.2) ms.rows := by
    apply sumWhere_split
    · intro r _
      rw [Bool.eq_iff_iff]
      simp only [Bool.or_eq_true, decide_eq_true_eq]
      omega
    · intro r _
      simp only [decide_eq_true_eq]
      omega
  rw [hsplit, get_dict]
  ring

/-! ## The series -/

theorem map_fst_balancesBack (movements : Movements) (keys : List String) (running : ℚ) :
    (balancesBack movements keys running).map (·.1) = keys := by
  induction keys generalizing running with
  | nil => rfl
  | cons key keys ih => rw [balancesBack, List.map_cons, ih]

/-- From what was moved up to the last month, the loop finds what was moved up to each month before
exactly when it is kept as it is. -/
theorem balancesBack_eq_iff (ms : MonthlyMovements) (n : ℕ) (last : ℤ) :
    ((balancesBack ms.dict ((lastMonths n last).map keyOf).reverse (ms.upTo last)).map (·.2)).reverse =
        (lastMonths n last).map ms.upTo ↔
      ∀ i ∈ lastMonths n last, i < last → inContext 28 (ms.upTo i) = ms.upTo i := by
  induction n generalizing last with
  | zero => exact iff_of_true rfl fun i hi => absurd hi List.not_mem_nil
  | succ n ih =>
    have hmem : ∀ i, (i ∈ lastMonths (n + 1) last ∧ i < last) ↔ i ∈ lastMonths n (last - 1) := by
      intro i
      rw [mem_lastMonths, mem_lastMonths]
      push_cast
      omega
    rw [lastMonths_succ, List.map_append, List.map_append, List.map_singleton, List.map_singleton,
      List.reverse_append, List.reverse_singleton, List.singleton_append, balancesBack, List.map_cons,
      List.reverse_cons, upTo_sub, List.append_left_inj, ← lastMonths_succ]
    cases n with
    | zero => exact iff_of_true rfl fun i hi hlt => absurd ((hmem i).mp ⟨hi, hlt⟩) List.not_mem_nil
    | succ n =>
      constructor
      · intro heq
        -- the month before the last is the first that the loop comes to
        have hfirst : inContext 28 (ms.upTo (last - 1)) = ms.upTo (last - 1) := by
          have hlast := congrArg List.getLast? heq
          rw [List.getLast?_reverse, lastMonths_succ, List.map_append, List.map_append,
            List.reverse_append] at hlast
          simpa [balancesBack] using hlast
        rw [hfirst] at heq
        intro i hi hlt
        by_cases hi' : i < last - 1
        · exact (ih (last - 1)).mp heq i ((hmem i).mp ⟨hi, hlt⟩) hi'
        · obtain rfl : i = last - 1 := by omega
          exact hfirst
      · intro hkept
        have hbefore : last - 1 ∈ lastMonths (n + 1) (last - 1) := by
          rw [mem_lastMonths]
          push_cast
          omega
        obtain ⟨hmem', hlt'⟩ := (hmem _).mpr hbefore
        rw [hkept _ hmem' hlt', ih]
        intro i hi _
        exact hkept i ((hmem i).mpr hi).1 ((hmem i).mpr hi).2

theorem upTo_last {ms : MonthlyMovements} {last : ℤ} (hpast : ∀ r ∈ ms.rows, r.1 ≤ last) :
    ms.upTo last = (ms.rows.map (·.2)).sum := by
  apply sumWhere_eq_sum
  intro r hr hlater
  exact absurd (hpast r hr) (of_decide_eq_false hlater)

/-- The differences of the sums up to consecutive months are the movements of these months. -/
theorem differences_upTo (ms : MonthlyMovements) (n : ℕ) (last : ℤ) :
    List.zipWith (· - ·) ((lastMonths n last).map ms.upTo).tail ((lastMonths n last).map ms.upTo) =
      ((lastMonths n last).map fun i => ms.dict.get (keyOf i)).tail := by
  apply List.ext_getElem
  · simp [lastMonths]
  · intro k _ _
    simp only [lastMonths, List.getElem_zipWith, List.getElem_tail, List.getElem_map, List.getElem_range]
    have hbefore : last - n + 1 + (k : ℤ) = last - n + 1 + ((k + 1 : ℕ) : ℤ) - 1 := by
      push_cast
      omega
    have hsub := upTo_sub ms (last - n + 1 + ((k + 1 : ℕ) : ℤ))
    rw [hbefore, ← hsub]
    ring

/-- There is one entry for each of the last `n` months, oldest first. They state what was moved up to and
including their months exactly when the decimal context keeps each of these sums but the last; and then
consecutive differences are the values of the flow. -/
theorem asCumulative_eq_iff (ms : MonthlyMovements) (n : ℤ) {today : Date}
    (hpast : ∀ r ∈ ms.rows, r.1 ≤ today.monthIndex) {currentTotal : ℚ}
    (htotal : currentTotal = (ms.rows.map (·.2)).sum) :
    (asCumulative ms.dict n today currentTotal).map (·.1) =
        (lastMonths n.toNat today.monthIndex).map keyOf ∧
      ((lastMonths n.toNat today.monthIndex).map keyOf).Nodup ∧
      ((asCumulative ms.dict n today currentTotal).map (·.2) =
          (lastMonths n.toNat today.monthIndex).map ms.upTo ↔
        ∀ i ∈ lastMonths n.toNat today.monthIndex, i < today.monthIndex →
          inContext 28 (ms.upTo i) = ms.upTo i) ∧
      ((∀ i ∈ lastMonths n.toNat today.monthIndex, i < today.monthIndex →
          inContext 28 (ms.upTo i) = ms.upTo i) →
        List.zipWith (· - ·) ((asCumulative ms.dict n today currentTotal).map (·.2)).tail
            ((asCumulative ms.dict n today currentTotal).map (·.2)) =
          ((asFlow ms.dict n today).map (·.2)).tail) := by
  have hiff := balancesBack_eq_iff ms n.toNat today.monthIndex
  rw [upTo_last hpast, ← htotal, ← monthKeys_eq, ← List.map_reverse] at hiff
  have hflow : (asFlow ms.dict n today).map (·.2) =
      (lastMonths n.toNat today.monthIndex).map fun i => ms.dict.get (keyOf i) := by
    rw [asFlow, monthKeys_eq, List.map_map, List.map_map]
    rfl
  refine ⟨?_, ?_, hiff, ?_⟩
  · rw [asCumulative, List.map_reverse, map_fst_balancesBack, List.reverse_reverse, monthKeys_eq]
  · exact (lastMonths_nodup _ _).map fun i j h => keyOf_inj h
  · intro hkept
    have hvalues : (asCumulative ms.dict n today currentTotal).map (·.2) = _ := hiff.mpr hkept
    rw [hvalues, hflow]
    exact differences_upTo ms n.toNat today.monthIndex

/-- 1 March 2026. -/
def seriesDay : Date := .ofOrdinal 739676

/-- Movements in the first three months of 2026. -/
def quarter (january february march : ℚ) : MonthlyMovements where
  rows := [(24312, january), (24313, february), (24314, march)]
  nodup := by
    show ([24312, 24313, 24314] : List ℤ).Nodup
    decide

/-- What was moved before the window counts. -/
theorem asCumulative_quarter : asCumulative (quarter 100 (-40) 25).dict 2 seriesDay 85 =
      [("2026-02", 60), ("2026-03", 85)] ∧
    ((asCumulative (quarter 100 (-40) 25).dict 2 seriesDay 85).map (·.2) =
      (lastMonths 2 seriesDay.monthIndex).map (quarter 100 (-40) 25).upTo) := by
  refine ⟨by decide +kernel, ?_⟩
  refine (asCumulative_eq_iff (quarter 100 (-40) 25) 2 ?_ ?_).2.2.1.mpr ?_
  · decide +kernel
  · decide +kernel
  · decide +kernel

/-- A sum of 31 digits is not kept: the series states one less for February. -/
theorem asCumulative_rounded :
    asCumulative (quarter 1 (10 ^ 30) 1).dict 3 seriesDay (10 ^ 30 + 2) =
        [("2026-01", 0), ("2026-02", 10 ^ 30), ("2026-03", 10 ^ 30 + 2)] ∧
      (quarter 1 (10 ^ 30) 1).upTo 24313 = 10 ^ 30 + 1 ∧
      ¬ ∀ (ms : MonthlyMovements) (n : ℤ) (today : Date), (∀ r ∈ ms.rows, r.1 ≤ today.monthIndex) →
        (asCumulative ms.dict n today (ms.rows.map (·.2)).sum).map (·.2) =
          (lastMonths n.toNat today.monthIndex).map ms.upTo := by
  refine ⟨by decide +kernel, by decide +kernel, ?_⟩
  intro hall
  have hwrong := hall (quarter 1 (10 ^ 30) 1) 3 seriesDay (by decide +kernel)
  revert hwrong
  decide +kernel

end SaccoPlatform
