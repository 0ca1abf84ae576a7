import SaccoPlatform.Lib.Runs
import Mathlib.Logic.Function.Basic

/-!
# Machines that share a store

Several parties are served by one machine. A party is alone when the others leave what it can observe
as it was: its operations are then answered as by a machine that serves nobody else, whatever the
order in which the operations of all come in.
-/

namespace SaccoPlatform.Lib

variable {σ τ ι α : Type}

/-- The answers of a run to the operations of one party. -/
def ownAnswers (own : ι → Bool) (step : σ → ι → σ × α) : σ → List ι → List α
  | _, [] => []
  | s, op :: ops =>
    if own op then (step s op).2 :: ownAnswers own step (step s op).1 ops
    else ownAnswers own step (step s op).1 ops

/-- `R` says that a state of the shared machine and one of the machine of the party look the same to
it: its operations are answered alike and keep that, and those of the others keep it, too. -/
theorem ownAnswers_alone {own : ι → Bool} {step : σ → ι → σ × α} {step' : τ → ι → τ × α}
    {R : σ → τ → Prop}
    (hown : ∀ s t op, own op = true → R s t →
      (step s op).2 = (step' t op).2 ∧ R (step s op).1 (step' t op).1)
    (hother : ∀ s t op, own op = false → R s t → R (step s op).1 t)
    {s : σ} {t : τ} (h : R s t) (ops : List ι) :
    ownAnswers own step s ops = answers step' t (ops.filter own) := by
  induction ops generalizing s t with
  | nil => rfl
  | cons op ops ih =>
    show (if own op then _ else _) = _
    cases hop : own op with
    | true =>
      obtain ⟨hanswer, hnext⟩ := hown s t op hop h
      rw [List.filter_cons_of_pos hop]
      show (step s op).2 :: _ = (step' t op).2 :: _
      rw [hanswer, ih hnext]
    | false =>
      rw [List.filter_cons_of_neg (by rw [hop]; exact Bool.false_ne_true)]
      exact ih (hother s t op hop h)

end SaccoPlatform.Lib
