import Mathlib.Data.List.DropRight

/-!
# Logs of changes of state

A log lists changes from one state to another in the order they were made. `Leads` says that it is
a chain, `EnteredSince` what it tells about the time after the last change into a base state.
-/

namespace SaccoPlatform.Lib

structure Change (σ : Type) where
  source : σ
  target : σ
deriving DecidableEq, Repr

variable {σ : Type}

/-- The log leads from `s` to `t`: each change starts where the one before it ended. -/
def Leads : σ → List (Change σ) → σ → Prop
  | s, [], t => s = t
  | s, c :: log, t => c.source = s ∧ Leads c.target log t

instance Leads.decidable [DecidableEq σ] : ∀ s log t, Decidable (Leads (σ := σ) s log t)
  | s, [], t => inferInstanceAs (Decidable (s = t))
  | s, c :: log, t =>
    have : Decidable (Leads c.target log t) := Leads.decidable c.target log t
    inferInstanceAs (Decidable (c.source = s ∧ Leads c.target log t))

theorem Leads.append {s t : σ} {log : List (Change σ)} (h : Leads s log t) {c : Change σ}
    (hc : c.source = t) : Leads s (log ++ [c]) c.target := by
  induction log generalizing s with
  | nil => exact ⟨hc.trans h.symm, rfl⟩
  | cons c' log ih => exact ⟨h.1, ih h.2⟩

theorem Leads.last {s t : σ} {log : List (Change σ)} {c : Change σ} (h : Leads s (log ++ [c]) t) :
    c.target = t := by
  induction log generalizing s with
  | nil => exact h.2
  | cons c' log ih => exact ih h.2

theorem leads_concat {s t : σ} {log : List (Change σ)} {c : Change σ} :
    Leads s (log ++ [c]) t ↔ Leads s log c.source ∧ c.target = t := by
  induction log generalizing s with
  | nil => exact and_congr_left fun _ => eq_comm
  | cons c' log ih =>
    show c'.source = s ∧ Leads c'.target (log ++ [c]) t ↔ (c'.source = s ∧ Leads c'.target log c.source) ∧ _
    rw [ih, and_assoc]

/-- A log leads to one state. -/
theorem Leads.unique {s t t' : σ} {log : List (Change σ)} (h : Leads s log t) (h' : Leads s log t') :
    t = t' := by
  induction log generalizing s with
  | nil => exact Eq.trans (Eq.symm h) h'
  | cons c log ih => exact ih h.2 h'.2

variable [DecidableEq σ]

/-- `x` was entered after the last change into `base`, or at all if there was none. -/
def EnteredSince (base x : σ) (log : List (Change σ)) : Prop :=
  ∃ c ∈ log.rtakeWhile (fun c => c.target ≠ base), c.target = x ∧ c.source ≠ x

instance (base x : σ) (log : List (Change σ)) : Decidable (EnteredSince base x log) :=
  inferInstanceAs (Decidable (∃ c ∈ _, _))

@[simp] theorem not_enteredSince_nil (base x : σ) : ¬ EnteredSince base x [] := by
  simp [EnteredSince]

theorem enteredSince_append (base x : σ) (log : List (Change σ)) (c : Change σ) :
    EnteredSince base x (log ++ [c]) ↔
      c.target ≠ base ∧ (EnteredSince base x log ∨ c.target = x ∧ c.source ≠ x) := by
  unfold EnteredSince
  rw [List.rtakeWhile_concat]
  by_cases h : c.target = base
  · simp [h]
  · rw [if_pos (by simpa using h)]
    simp only [List.mem_append, List.mem_singleton, or_and_right, exists_or, exists_eq_left, ne_eq,
      h, not_false_eq_true, true_and]

/-- In the base state nothing has been entered since the last change into it. -/
theorem Leads.not_enteredSince {base : σ} {log : List (Change σ)} (h : Leads base log base) (x : σ) :
    ¬ EnteredSince base x log := by
  induction log using List.reverseRecOn with
  | nil => exact not_enteredSince_nil base x
  | append_singleton log c _ =>
    rw [enteredSince_append]
    exact fun hentered => hentered.1 h.last

end SaccoPlatform.Lib
