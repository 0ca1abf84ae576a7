import SaccoPlatform.Lib.Grouping
import Mathlib.Data.List.Dedup

/-!
# Joins and groups

`JOIN`, `LEFT OUTER JOIN` and `GROUP BY` on lists of rows. A join on a key neither loses nor repeats
the rows that have one match each, so that sums over the joined rows are sums over the rows.
-/

namespace SaccoPlatform.Lib

variable {α β κ M : Type}

/-- `xs JOIN ys ON on`. -/
def innerJoin (on : α → β → Bool) (xs : List α) (ys : List β) : List (α × β) :=
  xs.flatMap fun x => (ys.filter (on x)).map fun y => (x, y)

/-- `xs LEFT OUTER JOIN ys ON on`: a row without a match stays, with nulls beside it. -/
def leftJoin (on : α → β → Bool) (xs : List α) (ys : List β) : List (α × Option β) :=
  xs.flatMap fun x =>
    if (ys.filter (on x)).isEmpty then [(x, none)]
    else (ys.filter (on x)).map fun y => (x, some y)

/-- The groups of `GROUP BY key`, each with its rows. -/
def groupRows [DecidableEq κ] (key : α → κ) (rows : List α) : List (κ × List α) :=
  (rows.map key).dedup.map fun k => (k, rows.filter fun r => key r = k)

theorem mem_innerJoin {on : α → β → Bool} {xs : List α} {ys : List β} {x : α} {y : β} :
    (x, y) ∈ innerJoin on xs ys ↔ x ∈ xs ∧ y ∈ ys ∧ on x y = true := by
  simp only [innerJoin, List.mem_flatMap, List.mem_map, List.mem_filter, Prod.mk.injEq]
  constructor
  · rintro ⟨x', hx, y', ⟨hy, hon⟩, rfl, rfl⟩
    exact ⟨hx, hy, hon⟩
  · rintro ⟨hx, hy, hon⟩
    exact ⟨x, hx, y, ⟨hy, hon⟩, rfl, rfl⟩

section

variable [DecidableEq κ] {key : β → κ} {f : α → κ} {ys : List β}

/-- A key that is in use at most once is matched at most once. -/
theorem filter_key_eq (hnodup : (ys.map key).Nodup) (k : κ) :
    ys.filter (fun y => key y = k) = (ys.find? fun y => key y = k).toList :=
  Keyed.filter_key ⟨ys, hnodup⟩ k

/-- An outer join with a table on its key keeps the rows as they are, each beside its match. -/
theorem leftJoin_key (hnodup : (ys.map key).Nodup) (xs : List α) :
    leftJoin (fun x y => key y = f x) xs ys
      = xs.map fun x => (x, ys.find? fun y => key y = f x) := by
  unfold leftJoin
  rw [← List.flatMap_singleton' (xs.map _), List.flatMap_map]
  congr 1
  funext x
  rw [filter_key_eq hnodup]
  cases ys.find? fun y => key y = f x <;> rfl

end

/-! ## Sums over a join -/

section

variable [AddCommMonoid M] [DecidableEq κ]

/-- Every row of the right side has its one match on the left: a sum that reads only the right side
is the sum over the right side. -/
theorem sumWhere_innerJoin_right {key : α → κ} {f : β → κ} {xs : List α} {ys : List β}
    (hnodup : (xs.map key).Nodup) (hfk : ∀ y ∈ ys, f y ∈ xs.map key)
    {p : α × β → Bool} {p' : β → Bool} {g : β → M}
    (hp : ∀ x y, (x, y) ∈ innerJoin (fun x y => f y = key x) xs ys → p (x, y) = p' y) :
    sumWhere p (fun row => g row.2) (innerJoin (fun x y => f y = key x) xs ys)
      = sumWhere p' g ys := by
  have hone : ∀ x ∈ xs, sumWhere p (fun row => g row.2)
      ((ys.filter fun y => f y = key x).map fun y => (x, y))
        = sumWhere (fun y => f y = key x) g (ys.filter p') := by
    intro x hx
    rw [sumWhere_map, sumWhere_filter, sumWhere_filter]
    apply sumWhere_congr
    intro y hy
    by_cases hon : f y = key x
    · have hmem : (x, y) ∈ innerJoin (fun x y => f y = key x) xs ys := by
        rw [mem_innerJoin]
        exact ⟨hx, hy, decide_eq_true hon⟩
      simp [hp x y hmem, hon]
    · simp [hon]
  have hcover : ∀ y ∈ ys.filter p', f y ∈ xs.map key :=
    fun y hy => hfk y (List.mem_filter.mp hy).1
  calc sumWhere p (fun row => g row.2) (innerJoin (fun x y => f y = key x) xs ys)
    _ = (xs.map fun x => sumWhere (fun y => f y = key x) g (ys.filter p')).sum := by
        rw [innerJoin, sumWhere_flatMap, List.map_congr_left hone]
    _ = ((xs.map key).map fun k => sumWhere (fun y => f y = k) g (ys.filter p')).sum := by
        rw [List.map_map]
        rfl
    _ = sumWhere p' g ys := sum_groups f g hnodup hcover

/-- Every row of the left side has one match at most: a sum that reads only the left side is the sum
over the rows with a match that counts. -/
theorem sumWhere_innerJoin_left {key : β → κ} {f : α → κ} {xs : List α} {ys : List β}
    (hnodup : (ys.map key).Nodup) (p : α × β → Bool) (g : α → M) :
    sumWhere p (fun row => g row.1) (innerJoin (fun x y => key y = f x) xs ys)
      = sumWhere (fun x => ys.any fun y => key y = f x && p (x, y)) g xs := by
  have hone : ∀ x, sumWhere p (fun row => g row.1)
      ((ys.filter fun y => key y = f x).map fun y => (x, y))
        = if (ys.any fun y => key y = f x && p (x, y)) = true then g x else 0 := by
    intro x
    have hany : (ys.any fun y => key y = f x && p (x, y))
        = (ys.filter fun y => key y = f x).any fun y => p (x, y) := by
      rw [List.any_filter]
    rw [hany, sumWhere_map, filter_key_eq hnodup]
    cases ys.find? fun y => key y = f x with
    | none => simp
    | some y => simp [sumWhere_cons]
  have hsum : ∀ (q : α → Bool) (rows : List α),
      (rows.map fun x => if q x = true then g x else 0).sum = sumWhere q g rows := by
    intro q rows
    induction rows with
    | nil => rfl
    | cons x rows ih => rw [List.map_cons, List.sum_cons, ih, sumWhere_cons]
  rw [innerJoin, sumWhere_flatMap, ← hsum]
  congr 1
  exact List.map_congr_left fun x _ => hone x

end

/-! ## Groups -/

section

variable [DecidableEq κ] {key : α → κ} {rows : List α}

theorem map_fst_groupRows : (groupRows key rows).map Prod.fst = (rows.map key).dedup := by
  unfold groupRows
  rw [List.map_map]
  exact List.map_id _

theorem mem_groupRows {g : κ × List α} :
    g ∈ groupRows key rows ↔ (∃ r ∈ rows, key r = g.1) ∧ g.2 = rows.filter fun r => key r = g.1 := by
  unfold groupRows
  simp only [List.mem_map, List.mem_dedup]
  constructor
  · rintro ⟨k, hk, rfl⟩
    exact ⟨hk, rfl⟩
  · rintro ⟨hk, hrows⟩
    exact ⟨g.1, hk, Prod.ext rfl hrows.symm⟩

end

/-- Rows that are converted one by one keep what the conversion keeps. -/
theorem map_mapM {γ : Type} {convert : α → Option β} {as : List α} {bs : List β}
    (h : as.mapM convert = some bs) {f : α → γ} {g : β → γ}
    (hrow : ∀ a b, convert a = some b → g b = f a) : bs.map g = as.map f := by
  rw [mapM_eq_some] at h
  induction h with
  | nil => rfl
  | @cons a b as bs hone _ ih => rw [List.map_cons, List.map_cons, ih, hrow a b hone]

end SaccoPlatform.Lib
