import SaccoPlatform.Lib.Tables

/-!
# Pouring

An amount is poured over rows, first to last: each row takes its part and hands on what is left.
Rows that are full are passed over. Two amounts one after the other end like their sum wherever they
do so on each single row.
-/

namespace SaccoPlatform.Lib

section Rewriting

variable {ρ κ : Type} [DecidableEq κ]

/-- The row as it was written under its key, or as it stands. -/
def rewritten (key : ρ → κ) (written : List ρ) (row : ρ) : ρ :=
  (written.find? fun w => key w = key row).getD row

variable {key : ρ → κ} {written : List ρ} {row : ρ}

theorem rewritten_cons (w : ρ) : rewritten key (w :: written) row =
    if key w = key row then w else rewritten key written row := by
  unfold rewritten
  by_cases h : key w = key row
  · rw [List.find?_cons_of_pos (by simpa using h), if_pos h]
    rfl
  · rw [List.find?_cons_of_neg (by simpa using h), if_neg h]

theorem rewritten_of_not_mem (h : key row ∉ written.map key) : rewritten key written row = row := by
  have hnone : (written.find? fun w => key w = key row) = none := by
    rw [List.find?_eq_none]
    intro w hw
    have hne : key w ≠ key row := fun heq => h (heq ▸ List.mem_map_of_mem hw)
    simpa using hne
  rw [rewritten, hnone]
  rfl

theorem key_rewritten (key : ρ → κ) (written : List ρ) (row : ρ) :
    key (rewritten key written row) = key row := by
  unfold rewritten
  cases hfind : written.find? fun w => key w = key row with
  | none => rfl
  | some w => simpa using List.find?_some hfind

/-- Rows that were all written are what was written. -/
theorem map_rewritten {rows : List ρ} (hkeys : written.map key = rows.map key)
    (hnodup : (rows.map key).Nodup) : rows.map (rewritten key written) = written := by
  induction rows generalizing written with
  | nil =>
    rw [List.map_nil, List.map_eq_nil_iff] at hkeys
    rw [hkeys]
    rfl
  | cons row rows ih =>
    cases written with
    | nil => cases hkeys
    | cons w written =>
      simp only [List.map_cons, List.cons.injEq] at hkeys
      rw [List.map_cons, List.nodup_cons] at hnodup
      have hrest : rows.map (rewritten key (w :: written)) = rows.map (rewritten key written) := by
        apply List.map_congr_left
        intro r hr
        have hne : key w ≠ key r := by
          intro heq
          apply hnodup.1
          rw [← hkeys.1, heq]
          exact List.mem_map_of_mem hr
        rw [rewritten_cons, if_neg hne]
      rw [List.map_cons, rewritten_cons, if_pos hkeys.1, hrest, ih hkeys.2 hnodup.2]

/-- Writing some of the rows again. -/
theorem rewritten_rewritten {again : List ρ} (hsub : again.map key ⊆ written.map key) :
    rewritten key again (rewritten key written row) =
      rewritten key (written.map (rewritten key again)) row := by
  have hsame : (fun w => decide (key w = key row)) ∘ rewritten key again =
      fun w => decide (key w = key row) := by
    funext w
    show decide (key (rewritten key again w) = key row) = decide (key w = key row)
    rw [key_rewritten key again w]
  by_cases hmem : key row ∈ written.map key
  · obtain ⟨w, hw, heq⟩ := List.mem_map.mp hmem
    unfold rewritten
    rw [List.find?_map]
    change _ = (Option.map (rewritten key again) (written.find?
      ((fun w => decide (key w = key row)) ∘ rewritten key again))).getD row
    rw [hsame]
    cases hfind : written.find? fun w => key w = key row with
    | none =>
      rw [List.find?_eq_none] at hfind
      exact absurd heq (by simpa using hfind w hw)
    | some w' => rfl
  · have hnot : key row ∉ (written.map (rewritten key again)).map key := by
      rw [List.map_map]
      intro h
      obtain ⟨w, hw, heq⟩ := List.mem_map.mp h
      apply hmem
      rw [← heq]
      show key (rewritten key again w) ∈ _
      rw [key_rewritten key again w]
      exact List.mem_map_of_mem hw
    rw [rewritten_of_not_mem hmem, rewritten_of_not_mem hnot,
      rewritten_of_not_mem fun h => hmem (hsub h)]

/-- Writing one row after the others. -/
theorem map_put_map_rewritten {rows : List ρ} {w : ρ} (hfresh : key w ∉ written.map key) :
    (rows.map fun r => if key r = key w then w else r).map (rewritten key written) =
      rows.map (rewritten key (w :: written)) := by
  rw [List.map_map]
  apply List.map_congr_left
  intro r _
  rw [rewritten_cons, Function.comp_apply]
  by_cases h : key r = key w
  · rw [if_pos h, if_pos h.symm, rewritten_of_not_mem hfresh]
  · rw [if_neg h, if_neg (Ne.symm h)]

end Rewriting

/-- Each row takes its part and hands on what is left. -/
def pour {σ ρ : Type} (take : σ → ρ → σ × ρ) : σ → List ρ → List ρ
  | _, [] => []
  | left, row :: rows => (take left row).2 :: pour take (take left row).1 rows

section Pouring

variable {σ ρ κ : Type} [DecidableEq κ] {take : σ → ρ → σ × ρ} {key : ρ → κ} {Good : σ → Prop}

omit [DecidableEq κ] in
theorem pour_keys (hkey : ∀ left row, key (take left row).2 = key row) (left : σ) (rows : List ρ) :
    (pour take left rows).map key = rows.map key := by
  induction rows generalizing left with
  | nil => rfl
  | cons row rows ih => rw [pour, List.map_cons, List.map_cons, hkey, ih]

omit [DecidableEq κ] in
/-- What is seen of the rows, poured over by itself. -/
theorem map_pour {σ' ρ' : Type} {take' : σ' → ρ' → σ' × ρ'} {f : σ → σ'} {g : ρ → ρ'}
    (hgood : ∀ left row, Good left → Good (take left row).1)
    (hstep : ∀ left row, Good left →
      take' (f left) (g row) = (f (take left row).1, g (take left row).2))
    {left : σ} (hleft : Good left) (rows : List ρ) :
    (pour take left rows).map g = pour take' (f left) (rows.map g) := by
  induction rows generalizing left with
  | nil => rfl
  | cons row rows ih =>
    rw [pour, List.map_cons, List.map_cons, pour, hstep left row hleft, ih (hgood left row hleft)]

/-- A row after the pouring is one that took its part. -/
theorem exists_of_mem_pour (hgood : ∀ left row, Good left → Good (take left row).1) {left : σ}
    (hleft : Good left) {rows : List ρ} {row' : ρ} (h : row' ∈ pour take left rows) :
    ∃ part row, Good part ∧ row ∈ rows ∧ (take part row).2 = row' := by
  induction rows generalizing left with
  | nil => cases h
  | cons row rows ih =>
    rcases List.mem_cons.mp h with rfl | h
    · exact ⟨left, row, hleft, List.mem_cons_self, rfl⟩
    · obtain ⟨part, r, hpart, hr, heq⟩ := ih (hgood left row hleft) h
      exact ⟨part, r, hpart, List.mem_cons_of_mem _ hr, heq⟩

/-- Two amounts one after the other, and their sum. -/
theorem pour_pour [Add σ] (hgood : ∀ left row, Good left → Good (take left row).1)
    (hrow : ∀ a b row, Good a → Good b →
      take (a + b) row = ((take a row).1 + (take b (take a row).2).1, (take b (take a row).2).2))
    {a b : σ} (ha : Good a) (hb : Good b) (rows : List ρ) :
    pour take b (pour take a rows) = pour take (a + b) rows := by
  induction rows generalizing a b with
  | nil => rfl
  | cons row rows ih =>
    have hrest := ih (hgood a row ha) (hgood b (take a row).2 hb)
    rw [pour, pour, pour, hrow a b row ha hb, hrest]

/-- Rows that take nothing may be left out. -/
theorem map_rewritten_pour_filter (hkey : ∀ left row, key (take left row).2 = key row)
    (hgood : ∀ left row, Good left → Good (take left row).1) {p : ρ → Bool} {rows : List ρ}
    (hskip : ∀ left, Good left → ∀ row ∈ rows, p row = false → take left row = (left, row))
    (hnodup : (rows.map key).Nodup) {left : σ} (hleft : Good left) :
    rows.map (rewritten key (pour take left (rows.filter p))) = pour take left rows := by
  induction rows generalizing left with
  | nil => rfl
  | cons row rows ih =>
    rw [List.map_cons, List.nodup_cons] at hnodup
    have hrows : ∀ left, Good left → ∀ row ∈ rows, p row = false → take left row = (left, row) :=
      fun left hl r hr => hskip left hl r (List.mem_cons_of_mem _ hr)
    cases hp : p row with
    | true =>
      have hrest : rows.map (rewritten key ((take left row).2 ::
            pour take (take left row).1 (rows.filter p))) =
          rows.map (rewritten key (pour take (take left row).1 (rows.filter p))) := by
        apply List.map_congr_left
        intro r hr
        have hne : key (take left row).2 ≠ key r := by
          intro heq
          apply hnodup.1
          rw [← hkey left row, heq]
          exact List.mem_map_of_mem hr
        rw [rewritten_cons, if_neg hne]
      rw [List.filter_cons_of_pos hp, pour, pour, List.map_cons, rewritten_cons, if_pos (hkey _ _),
        hrest, ih hrows hnodup.2 (hgood left row hleft)]
    | false =>
      have hnot : key row ∉ (pour take left (rows.filter p)).map key := by
        rw [pour_keys hkey]
        intro hmem
        apply hnodup.1
        exact List.map_subset key (List.filter_subset_self rows) hmem
      rw [List.filter_cons_of_neg (by simp [hp]), List.map_cons, rewritten_of_not_mem hnot,
        ih hrows hnodup.2 hleft, pour, hskip left hleft row List.mem_cons_self hp]

end Pouring

end SaccoPlatform.Lib
