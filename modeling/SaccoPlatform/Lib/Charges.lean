import SaccoPlatform.Lib.Tables
import Mathlib.Algebra.Order.BigOperators.Group.List

/-!
# Charges that are made once

A list of charges under keys of their own, and a set of keys that are used up. A charge is made when
its key is used for the first time, so what has been charged is the sum over the used keys.
-/

namespace SaccoPlatform.Lib

variable {κ M : Type}

/-- What the used keys have charged. -/
def charged [AddCommMonoid M] (used : κ → Prop) [DecidablePred used] (charges : List (κ × M)) : M :=
  (charges.map fun c => if used c.1 then c.2 else 0).sum

section

variable [AddCommMonoid M] {used used' : κ → Prop} [DecidablePred used] [DecidablePred used']
  {charges : List (κ × M)}

theorem charged_congr (h : ∀ c ∈ charges, (used c.1 ↔ used' c.1)) :
    charged used charges = charged used' charges := by
  unfold charged
  congr 1
  apply List.map_congr_left
  intro c hc
  by_cases hused : used c.1
  · rw [if_pos hused, if_pos ((h c hc).mp hused)]
  · rw [if_neg hused, if_neg fun hused' => hused ((h c hc).mpr hused')]

theorem charged_none (h : ∀ c ∈ charges, ¬ used c.1) : charged used charges = 0 := by
  have hzero : charges.map (fun c => if used c.1 then c.2 else 0) = charges.map fun _ => 0 :=
    List.map_congr_left fun c hc => if_neg (h c hc)
  unfold charged
  rw [hzero]
  simp

theorem charged_all (h : ∀ c ∈ charges, used c.1) : charged used charges = (charges.map (·.2)).sum := by
  unfold charged
  congr 1
  exact List.map_congr_left fun c hc => if_pos (h c hc)

/-- A key that is used for the first time makes its charge. -/
theorem charged_use [DecidableEq κ] {k : κ} {m : M} (hnodup : (charges.map (·.1)).Nodup)
    (hmem : (k, m) ∈ charges) (hnew : ¬ used k) (hused : ∀ x, used' x ↔ x = k ∨ used x) :
    charged used' charges = charged used charges + m := by
  unfold charged
  rw [← sum_map_add_one Prod.fst hnodup hmem]
  congr 1
  apply List.map_congr_left
  intro c hc
  by_cases hkey : c.1 = k
  · have hsame : c = (k, m) := List.inj_on_of_nodup_map hnodup hc hmem hkey
    rw [hsame, if_pos ((hused k).mpr (.inl rfl)), if_neg hnew, if_pos rfl, zero_add]
  · have hiff : used' c.1 ↔ used c.1 := by
      rw [hused, or_iff_right hkey]
    rw [if_neg hkey, add_zero]
    by_cases hold : used c.1
    · rw [if_pos (hiff.mpr hold), if_pos hold]
    · rw [if_neg fun h => hold (hiff.mp h), if_neg hold]

end

section

variable [AddCommMonoid M] [PartialOrder M] [IsOrderedAddMonoid M] {used : κ → Prop}
  [DecidablePred used] {charges : List (κ × M)}

theorem charged_le (hnonneg : ∀ c ∈ charges, 0 ≤ c.2) :
    charged used charges ≤ (charges.map (·.2)).sum := by
  apply List.sum_le_sum
  intro c hc
  split
  · exact le_rfl
  · exact hnonneg c hc

/-- There is room for a charge that has not been made. -/
theorem charged_add_le [DecidableEq κ] {k : κ} {m : M} (hnonneg : ∀ c ∈ charges, 0 ≤ c.2)
    (hnodup : (charges.map (·.1)).Nodup) (hmem : (k, m) ∈ charges) (hnew : ¬ used k) :
    charged used charges + m ≤ (charges.map (·.2)).sum := by
  rw [← @charged_use κ M _ used (fun x => x = k ∨ used x) _ _ charges _ k m hnodup hmem hnew
    fun _ => Iff.rfl]
  exact charged_le hnonneg

end

end SaccoPlatform.Lib
