import Mathlib.Algebra.BigOperators.Group.List.Basic
import Mathlib.Order.Basic
import SaccoPlatform.Lib.Keyed
import SaccoPlatform.Lib.Tables

/-!
# Sums over selected rows

What `SUM(...)` makes of the rows that a `WHERE` lets through, and of the groups of a `GROUP BY`.
-/

namespace SaccoPlatform.Lib

variable {α κ M : Type} [AddCommMonoid M]

/-- The sum of `f` over the rows that `p` selects. -/
def sumWhere (p : α → Bool) (f : α → M) (rows : List α) : M := ((rows.filter p).map f).sum

@[simp] theorem sumWhere_nil (p : α → Bool) (f : α → M) : sumWhere p f [] = 0 := rfl

theorem sumWhere_cons (p : α → Bool) (f : α → M) (r : α) (rows : List α) :
    sumWhere p f (r :: rows) = (if p r then f r else 0) + sumWhere p f rows := by
  unfold sumWhere
  by_cases h : p r = true <;> simp [h]

theorem sumWhere_congr {p q : α → Bool} (f : α → M) {rows : List α}
    (h : ∀ r ∈ rows, p r = q r) : sumWhere p f rows = sumWhere q f rows := by
  unfold sumWhere
  rw [List.filter_congr h]

theorem sumWhere_perm (p : α → Bool) (f : α → M) {rows rows' : List α} (h : rows.Perm rows') :
    sumWhere p f rows = sumWhere p f rows' := ((h.filter p).map f).sum_eq

theorem sumWhere_map {β : Type} (p : β → Bool) (f : β → M) (g : α → β) (rows : List α) :
    sumWhere p f (rows.map g) = sumWhere (fun r => p (g r)) (fun r => f (g r)) rows := by
  unfold sumWhere
  rw [List.filter_map, List.map_map]
  rfl

theorem sumWhere_filter (p q : α → Bool) (f : α → M) (rows : List α) :
    sumWhere p f (rows.filter q) = sumWhere (fun r => p r && q r) f rows := by
  unfold sumWhere
  rw [List.filter_filter]

theorem sumWhere_flatMap {β : Type} (p : β → Bool) (f : β → M) (g : α → List β) (rows : List α) :
    sumWhere p f (rows.flatMap g) = (rows.map fun r => sumWhere p f (g r)).sum := by
  unfold sumWhere
  induction rows with
  | nil => rfl
  | cons r rest ih =>
    rw [List.flatMap_cons, List.filter_append, List.map_append, List.sum_append, ih, List.map_cons,
      List.sum_cons]

/-- Rows that add nothing need not be selected. -/
theorem sumWhere_eq_sum {p : α → Bool} {f : α → M} {rows : List α}
    (h : ∀ r ∈ rows, p r = false → f r = 0) : sumWhere p f rows = (rows.map f).sum := by
  induction rows with
  | nil => rfl
  | cons r rest ih =>
    rw [sumWhere_cons, ih fun r hr => h r (List.mem_cons_of_mem _ hr), List.map_cons, List.sum_cons]
    by_cases hp : p r = true
    · rw [if_pos hp]
    · rw [if_neg hp, h r List.mem_cons_self (by simpa using hp)]

/-- Where keys are distinct, a key selects one row. -/
theorem filter_key_of_mem [DecidableEq κ] {key : α → κ} {rows : List α}
    (hnodup : (rows.map key).Nodup) {r₀ : α} (hr₀ : r₀ ∈ rows) :
    rows.filter (fun r => key r = key r₀) = [r₀] := by
  have hfilter := Keyed.filter_key ⟨rows, hnodup⟩ (key r₀)
  rw [Keyed.get?_of_mem hr₀] at hfilter
  exact hfilter

theorem sumWhere_key [DecidableEq κ] {key : α → κ} {rows : List α} (hnodup : (rows.map key).Nodup)
    {r₀ : α} (hr₀ : r₀ ∈ rows) (f : α → M) :
    sumWhere (fun r => key r = key r₀) f rows = f r₀ := by
  rw [sumWhere, filter_key_of_mem hnodup hr₀]
  simp

/-- A selection in two parts that no row belongs to both of. -/
theorem sumWhere_split {p q s : α → Bool} (f : α → M) {rows : List α}
    (hs : ∀ r ∈ rows, s r = (p r || q r)) (hdisjoint : ∀ r ∈ rows, ¬ (p r = true ∧ q r = true)) :
    sumWhere s f rows = sumWhere p f rows + sumWhere q f rows := by
  induction rows with
  | nil => simp
  | cons r rest ih =>
    have ih := ih (fun r hr => hs r (List.mem_cons_of_mem _ hr))
      fun r hr => hdisjoint r (List.mem_cons_of_mem _ hr)
    have hr := hs r List.mem_cons_self
    have hboth := hdisjoint r List.mem_cons_self
    rw [sumWhere_cons, sumWhere_cons, sumWhere_cons, ih, hr]
    cases hp : p r <;> cases hq : q r <;> simp [hp, hq, add_assoc, add_left_comm] at hboth ⊢

/-- Rows in strict order: the sum up to a row is the sum over what is not later. -/
theorem sum_upTo {β : Type} [LinearOrder β] {key : α → β} {front rest : List α} {x : α}
    (h : (front ++ x :: rest).Pairwise fun y z => key y < key z) (f : α → M) :
    sumWhere (fun y => key y ≤ key x) f (front ++ x :: rest) = ((front ++ [x]).map f).sum := by
  rw [List.pairwise_append, List.pairwise_cons] at h
  obtain ⟨-, ⟨hrest, -⟩, hfront⟩ := h
  have hkept : (front ++ x :: rest).filter (fun y => key y ≤ key x) = front ++ [x] := by
    rw [List.filter_append, List.filter_cons, if_pos (decide_eq_true (le_refl _)),
      List.filter_eq_self.mpr, List.filter_eq_nil_iff.mpr]
    · intro y hy
      simpa using hrest y hy
    · intro y hy
      exact decide_eq_true (hfront y hy x List.mem_cons_self).le
  rw [sumWhere, hkept]

/-- A list in order whose keys are distinct is in strict order. -/
theorem pairwise_lt_of_nodup {β : Type} [PartialOrder β] {key : α → β} {rows : List α}
    (hsorted : rows.Pairwise fun y z => key y ≤ key z) (hnodup : (rows.map key).Nodup) :
    rows.Pairwise fun y z => key y < key z := by
  rw [List.Nodup, List.pairwise_map] at hnodup
  exact (hsorted.and hnodup).imp fun h => lt_of_le_of_ne h.1 h.2

/-- The sums of the groups add up to the sum of all rows. -/
theorem sum_groups [DecidableEq κ] (key : α → κ) (f : α → M) {keys : List κ} (hnodup : keys.Nodup)
    {rows : List α} (hcover : ∀ r ∈ rows, key r ∈ keys) :
    (keys.map fun k => sumWhere (fun r => key r = k) f rows).sum = (rows.map f).sum := by
  induction rows with
  | nil => simp
  | cons r rest ih =>
    have ih := ih fun r hr => hcover r (List.mem_cons_of_mem _ hr)
    have hself : (keys.map id).Nodup := by rwa [List.map_id]
    have hone := sum_map_add_one id hself (hcover r List.mem_cons_self)
      (fun k => sumWhere (fun r => key r = k) f rest) (f r)
    rw [List.map_cons, List.sum_cons, ← ih, add_comm (f r), ← hone]
    congr 1
    apply List.map_congr_left
    intro k _
    rw [sumWhere_cons, add_comm]
    simp [eq_comm]

end SaccoPlatform.Lib
