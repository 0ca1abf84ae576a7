import Mathlib.Data.List.Induction
import SaccoPlatform.Lib.Runs

/-!
# What held at some time of a run

An invariant of a state may speak of the run that led to it: that something was so once, and no
longer need be.
-/

namespace SaccoPlatform.Lib

variable {σ ι : Type} {step : σ → ι → σ} {s : σ} {ops : List ι} {P : σ → Prop}

/-- Some state of the run has the property; the first and the last one count. -/
def Once (step : σ → ι → σ) (s : σ) (ops : List ι) (P : σ → Prop) : Prop :=
  ∃ front, front <+: ops ∧ P (run step s front)

namespace Once

/-- It is so now. -/
theorem now (h : P (run step s ops)) : Once step s ops P := ⟨ops, List.prefix_refl ops, h⟩

theorem append (h : Once step s ops P) (op : ι) : Once step s (ops ++ [op]) P := by
  obtain ⟨front, hfront, hp⟩ := h
  exact ⟨front, hfront.trans (List.prefix_append ops [op]), hp⟩

theorem before (h : P (run step s ops)) (op : ι) : Once step s (ops ++ [op]) P := (now h).append op

end Once

/-- What one more operation keeps, of the state and of the run up to it, holds after every run. -/
theorem history_invariant {Inv : List ι → σ → Prop} {ok : ι → Prop} (hstart : Inv [] s)
    (hstep : ∀ ops op, Inv ops (run step s ops) → ok op →
      Inv (ops ++ [op]) (step (run step s ops) op))
    (hops : ∀ op ∈ ops, ok op) : Inv ops (run step s ops) := by
  induction ops using List.reverseRecOn with
  | nil => exact hstart
  | append_singleton ops op ih =>
    rw [run_append]
    have hfront := ih fun op' hop' => hops op' (List.mem_append_left _ hop')
    exact hstep ops op hfront (hops op (List.mem_append_right _ List.mem_cons_self))

end SaccoPlatform.Lib
