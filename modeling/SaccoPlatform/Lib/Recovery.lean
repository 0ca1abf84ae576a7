import SaccoPlatform.Lib.Runs

/-!
# Recovery

What is left to do in a state is counted. Some states are stuck for good; from any other state in
which something is left, operations lead on to one that is not stuck and in which less is left. Then
everything can still be done exactly where the state is not stuck.
-/

namespace SaccoPlatform.Lib

variable {σ ι : Type}

theorem recoverable_iff {step : σ → ι → σ} {left : σ → ℕ} {Stuck : σ → Prop}
    (hstay : ∀ s op, Stuck s → Stuck (step s op)) (hleft : ∀ s, Stuck s → left s ≠ 0)
    (hprogress : ∀ s, ¬ Stuck s → left s ≠ 0 →
      ∃ ops, ¬ Stuck (run step s ops) ∧ left (run step s ops) < left s) (s : σ) :
    (∃ later, left (run step s later) = 0) ↔ ¬ Stuck s := by
  constructor
  · rintro ⟨later, hdone⟩ hstuck
    exact hleft _ (run_invariant_of_step hstay later hstuck) hdone
  · intro hfree
    induction hn : left s using Nat.strongRecOn generalizing s with
    | ind n ih =>
      by_cases hzero : left s = 0
      · exact ⟨[], hzero⟩
      · obtain ⟨ops, hfree', hless⟩ := hprogress s hfree hzero
        obtain ⟨later, hdone⟩ := ih _ (hn ▸ hless) _ hfree' rfl
        exact ⟨ops ++ later, by rw [run_append]; exact hdone⟩

/-- A run goes through recoverable states only exactly when none of its operations gets one stuck. -/
theorem always_recoverable_iff {step : σ → ι → σ} {ok : σ → ι → Prop} {left : σ → ℕ} {Stuck : σ → Prop}
    (hstay : ∀ s op, Stuck s → Stuck (step s op)) (hleft : ∀ s, Stuck s → left s ≠ 0)
    (hprogress : ∀ s, ¬ Stuck s → left s ≠ 0 →
      ∃ ops, ¬ Stuck (run step s ops) ∧ left (run step s ops) < left s)
    (hok : ∀ s op, ¬ Stuck s → (¬ Stuck (step s op) ↔ ok s op)) {s : σ} (hs : ¬ Stuck s)
    (ops : List ι) :
    (∀ front, front <+: ops → ∃ later, left (run step (run step s front) later) = 0) ↔
      Along step ok s ops := by
  rw [← @always_iff_along σ ι step ok (fun _ => True) (fun s => ¬ Stuck s) (fun _ _ _ _ => trivial)
    (fun s op _ h => hok s op h) s trivial hs ops]
  exact forall_congr' fun front => imp_congr_right fun _ =>
    recoverable_iff hstay hleft hprogress (run step s front)

/-- Fewer elements are counted when each that is counted was counted before, and one is not. -/
theorem countP_lt_of_changed {α : Type} {p : α → Bool} {f : α → α} {xs : List α}
    (hf : ∀ x ∈ xs, p (f x) = true → p x = true) {x : α} (hx : x ∈ xs) (hp : p x = true)
    (hfx : p (f x) = false) : (xs.map f).countP p < xs.countP p := by
  induction xs with
  | nil => cases hx
  | cons y ys ih =>
    have hle : (ys.map f).countP p ≤ ys.countP p := by
      rw [List.countP_map]
      exact List.countP_mono_left fun z hz => hf z (List.mem_cons_of_mem _ hz)
    rw [List.map_cons, List.countP_cons, List.countP_cons]
    rcases List.mem_cons.mp hx with rfl | hrest
    · rw [hfx, hp]
      simp only [Bool.false_eq_true, if_false, if_true]
      omega
    · have hless := ih (fun z hz => hf z (List.mem_cons_of_mem _ hz)) hrest
      have hy := hf y List.mem_cons_self
      cases hpy : p (f y) with
      | false =>
        simp only [Bool.false_eq_true, if_false]
        omega
      | true =>
        rw [hy hpy]
        simp only [if_true]
        omega

end SaccoPlatform.Lib
