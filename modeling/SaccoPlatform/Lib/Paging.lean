import Mathlib.Data.List.Sort

/-!
# Pages of a list that grows

Rows in a fixed order are read page by page while others add rows anywhere in that order. A row that
was there at the start is pushed back, never forward, so a reader who goes on to a page that is not
full has met it.
-/

namespace SaccoPlatform.Lib

variable {α : Type}

/-- `OFFSET (n - 1) * size LIMIT size`; pages are counted from 1. -/
def page (size n : ℕ) (rows : List α) : List α := (rows.drop ((n - 1) * size)).take size

theorem page_append_drop (size n : ℕ) (rows : List α) :
    page size (n + 1) rows ++ rows.drop ((n + 1) * size) = rows.drop (n * size) := by
  have hdrop : rows.drop ((n + 1) * size) = (rows.drop (n * size)).drop size := by
    rw [List.drop_drop, Nat.succ_mul]
  rw [page, Nat.add_sub_cancel, hdrop, List.take_append_drop]

/-- After a page that is not full there is no row. -/
theorem drop_eq_nil_of_short {size n : ℕ} {rows : List α}
    (h : (page size (n + 1) rows).length < size) : rows.drop ((n + 1) * size) = [] := by
  rw [page, Nat.add_sub_cancel, List.length_take, List.length_drop] at h
  rw [List.drop_eq_nil_iff, Nat.succ_mul]
  omega

theorem mul_le_of_full {size n : ℕ} {rows : List α} (h : ¬ (page size (n + 1) rows).length < size)
    (hfront : n * size ≤ rows.length) : (n + 1) * size ≤ rows.length := by
  rw [page, Nat.add_sub_cancel, List.length_take, List.length_drop] at h
  rw [Nat.succ_mul]
  omega

/-- The pages that were read, and the rows after them, are all the rows. -/
def Covers (size : ℕ) (rows : List α) (pages : List (List α)) : Prop :=
  pages.flatten ++ rows.drop (pages.length * size) = rows

namespace Covers

variable {size : ℕ} {rows : List α} {pages : List (List α)}

theorem start : Covers size rows [] := by
  rw [Covers, List.length_nil, Nat.zero_mul, List.drop_zero, List.flatten_nil, List.nil_append]

theorem read (h : Covers size rows pages) :
    Covers size rows (pages ++ [page size (pages.length + 1) rows]) := by
  rw [Covers, List.flatten_append, List.flatten_singleton, List.length_append, List.length_singleton,
    List.append_assoc, page_append_drop]
  exact h

theorem eq_of_short (h : Covers size rows pages)
    (hshort : (page size (pages.length + 1) rows).length < size) :
    (pages ++ [page size (pages.length + 1) rows]).flatten = rows := by
  have hread := h.read
  rw [Covers, List.length_append, List.length_singleton, drop_eq_nil_of_short hshort,
    List.append_nil] at hread
  exact hread

end Covers

/-- A row is on a page that was read, or comes after these. -/
def Accounted (size : ℕ) (rows : List α) (pages : List (List α)) (row : α) : Prop :=
  row ∈ pages.flatten ∨ row ∈ rows.drop (pages.length * size)

namespace Accounted

variable {size : ℕ} {rows : List α} {pages : List (List α)} {row : α}

theorem start (h : row ∈ rows) : Accounted size rows [] row := by
  rw [Accounted, List.length_nil, Nat.zero_mul, List.drop_zero]
  exact .inr h

/-- Rows that are added push others back. -/
theorem grow {rows' : List α} (h : Accounted size rows pages row) (hgrow : rows.Sublist rows') :
    Accounted size rows' pages row := by
  rcases h with hread | hlater
  · exact .inl hread
  · exact .inr ((hgrow.drop _).subset hlater)

theorem read (h : Accounted size rows pages row) :
    Accounted size rows (pages ++ [page size (pages.length + 1) rows]) row := by
  rw [Accounted, List.flatten_append, List.flatten_singleton, List.length_append, List.length_singleton]
  rcases h with hread | hlater
  · exact .inl (List.mem_append_left _ hread)
  · rw [← page_append_drop, List.mem_append] at hlater
    exact hlater.imp_left (List.mem_append_right _)

theorem mem_of_short (h : Accounted size rows pages row)
    (hshort : (page size (pages.length + 1) rows).length < size) :
    row ∈ (pages ++ [page size (pages.length + 1) rows]).flatten := by
  rcases h.read with hread | hlater
  · exact hread
  · rw [List.length_append, List.length_singleton, drop_eq_nil_of_short hshort] at hlater
    cases hlater

end Accounted

/-- Sorting keeps the place of the rows among each other, where no two of them are equivalent. -/
theorem insertionSort_sublist {r : α → α → Prop} [DecidableRel r] [Std.Total r] [IsTrans α r]
    {xs ys : List α} (hsub : xs.Subperm ys)
    (hanti : ∀ a ∈ ys, ∀ b ∈ ys, r a b → r b a → a = b) :
    (xs.insertionSort r).Sublist (ys.insertionSort r) := by
  have hsorted : xs.Subperm (ys.insertionSort r) :=
    hsub.trans (List.perm_insertionSort r ys).symm.subperm
  have ⟨zs, hperm, hsublist⟩ := hsorted
  have hzs : zs.Pairwise r := (List.pairwise_insertionSort r ys).sublist hsublist
  have heq : xs.insertionSort r = zs := by
    apply List.Perm.eq_of_pairwise _ (List.pairwise_insertionSort r xs) hzs
      ((List.perm_insertionSort r xs).trans hperm.symm)
    intro a b ha hb hab hba
    have hb' : b ∈ ys := (List.mem_insertionSort r).mp (hsublist.subset hb)
    have ha' : a ∈ ys := hsub.subset ((List.mem_insertionSort r).mp ha)
    exact hanti a ha' b hb' hab hba
  rw [heq]
  exact hsublist

end SaccoPlatform.Lib
