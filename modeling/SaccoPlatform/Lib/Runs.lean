import Mathlib.Data.List.Basic

/-!
# Runs of a step function

A run is a list of operations applied in order. `Along` says that every operation of the
run meets a condition in the state it is applied to; the rules below turn what one step
preserves under such a condition into what a whole run preserves.
-/

namespace SaccoPlatform.Lib

variable {σ τ ι : Type}

/-- The state after the operations `ops`, applied in order. -/
def run (step : σ → ι → σ) (s : σ) (ops : List ι) : σ := ops.foldl step s

@[simp] theorem run_nil (step : σ → ι → σ) (s : σ) : run step s [] = s := rfl

@[simp] theorem run_cons (step : σ → ι → σ) (s : σ) (op : ι) (ops : List ι) :
    run step s (op :: ops) = run step (step s op) ops := rfl

theorem run_append (step : σ → ι → σ) (s : σ) (xs ys : List ι) :
    run step s (xs ++ ys) = run step (run step s xs) ys := List.foldl_append

/-- Every operation of the run meets `ok` in the state it is applied to. -/
def Along (step : σ → ι → σ) (ok : σ → ι → Prop) : σ → List ι → Prop
  | _, [] => True
  | s, op :: ops => ok s op ∧ Along step ok (step s op) ops

instance Along.decidable (step : σ → ι → σ) (ok : σ → ι → Prop)
    [∀ s op, Decidable (ok s op)] : ∀ s ops, Decidable (Along step ok s ops)
  | _, [] => inferInstanceAs (Decidable True)
  | s, op :: ops =>
    have : Decidable (Along step ok (step s op) ops) := Along.decidable step ok (step s op) ops
    inferInstanceAs (Decidable (ok s op ∧ Along step ok (step s op) ops))

theorem Along.mono {step : σ → ι → σ} {ok ok' : σ → ι → Prop} (h : ∀ s op, ok s op → ok' s op)
    {s : σ} {ops : List ι} (hops : Along step ok s ops) : Along step ok' s ops := by
  induction ops generalizing s with
  | nil => trivial
  | cons op ops ih => exact ⟨h s op hops.1, ih hops.2⟩

/-- What one admissible step preserves, an admissible run preserves. -/
theorem run_invariant {step : σ → ι → σ} {ok : σ → ι → Prop} {Inv : σ → Prop}
    (hstep : ∀ s op, Inv s → ok s op → Inv (step s op))
    {s : σ} {ops : List ι} (h : Inv s) (hops : Along step ok s ops) :
    Inv (run step s ops) := by
  induction ops generalizing s with
  | nil => exact h
  | cons op ops ih => exact ih (hstep s op h hops.1) hops.2

/-- Where every state of a run admits every operation, the run is admissible. -/
theorem along_of_invariant {step : σ → ι → σ} {ok : σ → ι → Prop} {Inv : σ → Prop}
    (hstep : ∀ s op, Inv s → Inv (step s op)) (hok : ∀ s op, Inv s → ok s op) {s : σ} (h : Inv s)
    (ops : List ι) : Along step ok s ops := by
  induction ops generalizing s with
  | nil => trivial
  | cons op ops ih => exact ⟨hok s op h, ih (hstep s op h)⟩

theorem along_and {step : σ → ι → σ} {ok ok' : σ → ι → Prop} {s : σ} {ops : List ι} :
    Along step (fun s op => ok s op ∧ ok' s op) s ops ↔
      Along step ok s ops ∧ Along step ok' s ops := by
  induction ops generalizing s with
  | nil => simp [Along]
  | cons op ops ih =>
    simp only [Along, ih]
    exact and_and_and_comm

/-- What every step preserves, every run preserves. -/
theorem run_invariant_of_step {step : σ → ι → σ} {Inv : σ → Prop}
    (hstep : ∀ s op, Inv s → Inv (step s op)) {s : σ} (ops : List ι) (h : Inv s) :
    Inv (run step s ops) := by
  induction ops generalizing s with
  | nil => exact h
  | cons op ops ih => exact ih (hstep s op h)

/-- Where the operations of a run act on different keys, at most one of them shows at a key. -/
theorem run_at {κ ν : Type} {step : σ → ι → σ} {key : ι → κ} {view : σ → κ → ν}
    (hother : ∀ s op k, k ≠ key op → view (step s op) k = view s k) {ops : List ι}
    (hnodup : (ops.map key).Nodup) (s : σ) (k : κ) :
    ((∀ op ∈ ops, key op ≠ k) ∧ view (run step s ops) k = view s k) ∨
      ∃ op ∈ ops, key op = k ∧ ∃ front, view (run step s front) k = view s k ∧
        view (run step s ops) k = view (step (run step s front) op) k := by
  induction ops generalizing s with
  | nil => exact .inl ⟨by simp, rfl⟩
  | cons op ops ih =>
    rw [List.map_cons, List.nodup_cons] at hnodup
    rw [run_cons]
    by_cases hkey : key op = k
    · right
      refine ⟨op, List.mem_cons_self, hkey, [], rfl, ?_⟩
      rcases ih hnodup.2 (step s op) with ⟨-, hsame⟩ | ⟨op', hop', hkey', -⟩
      · exact hsame
      · exact absurd (List.mem_map.mpr ⟨op', hop', hkey'.trans hkey.symm⟩) hnodup.1
    · have hfirst : view (step s op) k = view s k := hother s op k (Ne.symm hkey)
      rcases ih hnodup.2 (step s op) with ⟨hnone, hsame⟩ | ⟨op', hop', hkey', front, hfront, hend⟩
      · left
        refine ⟨?_, hsame.trans hfirst⟩
        intro op' hop'
        rcases List.mem_cons.mp hop' with rfl | hrest
        · exact hkey
        · exact hnone op' hrest
      · exact .inr ⟨op', List.mem_cons_of_mem _ hop', hkey', op :: front, hfront.trans hfirst, hend⟩

/-- An invariant holds in every state of a run exactly when every operation is admissible, provided
that the operations which keep it are the admissible ones. `Aux` is what every step preserves as
long as the invariant holds. -/
theorem always_iff_along {step : σ → ι → σ} {ok : σ → ι → Prop} {Aux Inv : σ → Prop}
    (haux : ∀ s op, Aux s → Inv s → Aux (step s op))
    (hstep : ∀ s op, Aux s → Inv s → (Inv (step s op) ↔ ok s op))
    {s : σ} (hs : Aux s) (h : Inv s) (ops : List ι) :
    (∀ front, front <+: ops → Inv (run step s front)) ↔ Along step ok s ops := by
  induction ops generalizing s with
  | nil =>
    refine ⟨fun _ => trivial, fun _ front hfront => ?_⟩
    rw [List.prefix_nil.mp hfront]
    exact h
  | cons op ops ih =>
    constructor
    · intro hall
      have hnext : Inv (step s op) := hall [op] ((List.prefix_cons_inj op).mpr List.nil_prefix)
      refine ⟨(hstep s op hs h).mp hnext, (ih (haux s op hs h) hnext).mp ?_⟩
      intro front hfront
      exact hall (op :: front) ((List.prefix_cons_inj op).mpr hfront)
    · rintro ⟨hop, hops⟩ front hfront
      have hnext : Inv (step s op) := (hstep s op hs h).mpr hop
      cases front with
      | nil => exact h
      | cons op' front =>
        obtain ⟨rfl, hrest⟩ := List.cons_prefix_cons.mp hfront
        exact (ih (haux s op' hs h) hnext).mpr hops front hrest

/-- What holds after each operation of a run, one operation at a time. -/
theorem after_iff_along {step : σ → ι → σ} {Q : ι → σ → Prop} {s : σ} {ops : List ι} :
    (∀ front op, front ++ [op] <+: ops → Q op (run step s (front ++ [op]))) ↔
      Along step (fun s op => Q op (step s op)) s ops := by
  induction ops generalizing s with
  | nil => simp [Along]
  | cons op ops ih =>
    constructor
    · intro h
      refine ⟨h [] op ((List.prefix_cons_inj op).mpr List.nil_prefix), ih.mp ?_⟩
      intro front op' hprefix
      exact h (op :: front) op' ((List.prefix_cons_inj op).mpr hprefix)
    · rintro ⟨hop, hops⟩ front op' hprefix
      cases front with
      | nil =>
        obtain ⟨rfl, -⟩ := List.cons_prefix_cons.mp hprefix
        exact hop
      | cons op'' front =>
        obtain ⟨rfl, hrest⟩ := List.cons_prefix_cons.mp hprefix
        exact ih.mpr hops front op' hrest

/-- Where every operation meets `pre`: either every one is admissible too and the run ends well, or
one is not and the run ends badly. The first operation that is not admissible does the damage, and
nothing repairs it. -/
theorem along_good_or_bad_of {step : σ → ι → σ} {pre ok : σ → ι → Prop} {Good Bad : σ → Prop}
    (hgood : ∀ s op, Good s → pre s op → ok s op → Good (step s op))
    (hbad : ∀ s op, Good s → pre s op → ¬ ok s op → Bad (step s op))
    (hstuck : ∀ s op, Bad s → Bad (step s op)) {s : σ} (h : Good s) {ops : List ι}
    (hpre : Along step pre s ops) :
    (Along step ok s ops ∧ Good (run step s ops)) ∨
      (¬ Along step ok s ops ∧ Bad (run step s ops)) := by
  induction ops generalizing s with
  | nil => exact .inl ⟨trivial, h⟩
  | cons op ops ih =>
    by_cases hok : ok s op
    · obtain ⟨halong, hend⟩ | ⟨hnot, hend⟩ := ih (hgood s op h hpre.1 hok) hpre.2
      · exact .inl ⟨⟨hok, halong⟩, hend⟩
      · exact .inr ⟨fun halong => hnot halong.2, hend⟩
    · refine .inr ⟨fun halong => hok halong.1, ?_⟩
      exact run_invariant_of_step hstuck ops (hbad s op h hpre.1 hok)

/-- Either every operation of a run is admissible and the run ends well, or one is not and it ends
badly. -/
theorem along_good_or_bad {step : σ → ι → σ} {ok : σ → ι → Prop} {Good Bad : σ → Prop}
    (hgood : ∀ s op, Good s → ok s op → Good (step s op))
    (hbad : ∀ s op, Good s → ¬ ok s op → Bad (step s op))
    (hstuck : ∀ s op, Bad s → Bad (step s op)) {s : σ} (h : Good s) (ops : List ι) :
    (Along step ok s ops ∧ Good (run step s ops)) ∨
      (¬ Along step ok s ops ∧ Bad (run step s ops)) := by
  have hall : Along step (fun _ _ => True) s ops :=
    @along_of_invariant σ ι step _ (fun _ => True) (fun _ _ _ => trivial) (fun _ _ _ => trivial) s
      trivial ops
  exact along_good_or_bad_of (fun s op hs _ => hgood s op hs) (fun s op hs _ => hbad s op hs)
    hstuck h hall

/-- What holds once in a run holds from then on exactly when every operation is admissible, provided
that the admissible operations are those which keep it where it holds. -/
theorem stays_iff_along {step : σ → ι → σ} {ok : σ → ι → Prop} {Aux P : σ → Prop} {good : ι → Prop}
    (haux : ∀ s op, good op → Aux s → Aux (step s op))
    (hkeep : ∀ s op, Aux s → P s → (P (step s op) ↔ ok s op))
    (hfree : ∀ s op, ¬ P s → ok s op)
    {s : σ} (hs : Aux s) {ops : List ι} (hops : ∀ op ∈ ops, good op) :
    (∀ front later, front ++ later <+: ops → P (run step s front) →
      P (run step s (front ++ later))) ↔ Along step ok s ops := by
  induction ops generalizing s with
  | nil =>
    refine ⟨fun _ => trivial, fun _ front later hprefix h => ?_⟩
    obtain ⟨rfl, rfl⟩ := List.append_eq_nil_iff.mp (List.prefix_nil.mp hprefix)
    exact h
  | cons op ops ih =>
    have hnext := haux s op (hops op List.mem_cons_self) hs
    have ih' := ih hnext fun op' hop' => hops op' (List.mem_cons_of_mem _ hop')
    constructor
    · intro hall
      refine ⟨?_, ih'.mp ?_⟩
      · by_cases hP : P s
        · have hone : [] ++ [op] <+: op :: ops := (List.prefix_cons_inj op).mpr List.nil_prefix
          exact (hkeep s op hs hP).mp (hall [] [op] hone hP)
        · exact hfree s op hP
      · intro front later hprefix
        exact hall (op :: front) later ((List.prefix_cons_inj op).mpr hprefix)
    · rintro ⟨hop, hrest⟩ front later hprefix h
      cases front with
      | cons op' front =>
        obtain ⟨rfl, hprefix'⟩ := List.cons_prefix_cons.mp hprefix
        exact ih'.mpr hrest front later hprefix' h
      | nil =>
        cases later with
        | nil => exact h
        | cons op' later =>
          obtain ⟨rfl, hprefix'⟩ := List.cons_prefix_cons.mp hprefix
          exact ih'.mpr hrest [] later hprefix' ((hkeep s op' hs h).mpr hop)

/-- What holds after a run held before it, or one of its steps brought it about. -/
theorem run_iff_exists {step : σ → ι → σ} {P : σ → Prop} {Q : σ → ι → Prop}
    (hstep : ∀ s op, P (step s op) ↔ P s ∨ Q s op) (s : σ) (ops : List ι) :
    P (run step s ops) ↔
      P s ∨ ∃ front op rest, ops = front ++ op :: rest ∧ Q (run step s front) op := by
  induction ops generalizing s with
  | nil =>
    refine ⟨.inl, ?_⟩
    rintro (h | ⟨front, op, rest, hnil, -⟩)
    · exact h
    · cases front <;> cases hnil
  | cons op ops ih =>
    rw [run_cons, ih, hstep, or_assoc]
    refine or_congr_right ?_
    constructor
    · rintro (h | ⟨front, op', rest, rfl, h⟩)
      · exact ⟨[], op, ops, rfl, h⟩
      · exact ⟨op :: front, op', rest, rfl, h⟩
    · rintro ⟨front, op', rest, hops, h⟩
      cases front with
      | nil =>
        cases hops
        exact .inl h
      | cons op'' front =>
        cases hops
        exact .inr ⟨front, op', rest, rfl, h⟩

/-- Two systems stay related along a run when every admissible step keeps them related. -/
theorem run_simulation {step : σ → ι → σ} {step' : τ → ι → τ} {ok : σ → ι → Prop}
    {R : σ → τ → Prop}
    (hstep : ∀ s s' op, R s s' → ok s op → R (step s op) (step' s' op))
    {s : σ} {s' : τ} {ops : List ι} (h : R s s') (hops : Along step ok s ops) :
    R (run step s ops) (run step' s' ops) := by
  induction ops generalizing s s' with
  | nil => exact h
  | cons op ops ih => exact ih (hstep s s' op h hops.1) hops.2

/-- An admissible run splits at any point into admissible parts. -/
theorem along_append {step : σ → ι → σ} {ok : σ → ι → Prop} {s : σ} {xs ys : List ι} :
    Along step ok s (xs ++ ys) ↔ Along step ok s xs ∧ Along step ok (run step s xs) ys := by
  induction xs generalizing s with
  | nil => simp [Along]
  | cons x xs ih => simp only [List.cons_append, Along, run_cons, ih, and_assoc]

/-- What a machine answers along a run. -/
def answers {α : Type} (step : σ → ι → σ × α) : σ → List ι → List α
  | _, [] => []
  | s, op :: ops => (step s op).2 :: answers step (step s op).1 ops

/-- What holds of every answer of a run, holds of the answer to each of its operations. -/
theorem forall_answers {α : Type} {step : σ → ι → σ × α} {P : α → Prop} {s : σ} {ops : List ι} :
    (∀ a ∈ answers step s ops, P a) ↔
      Along (fun s op => (step s op).1) (fun s op => P (step s op).2) s ops := by
  induction ops generalizing s with
  | nil => exact iff_of_true (fun _ h => absurd h List.not_mem_nil) trivial
  | cons op ops ih =>
    show (∀ a ∈ (step s op).2 :: answers step (step s op).1 ops, P a) ↔ _
    rw [List.forall_mem_cons, ih]
    rfl

/-- Two machines that agree step by step answer alike. -/
theorem answers_simulation {α : Type} {step : σ → ι → σ × α} {step' : τ → ι → τ × α}
    {R : σ → τ → Prop}
    (hstep : ∀ s t op, R s t → (step s op).2 = (step' t op).2 ∧ R (step s op).1 (step' t op).1)
    {s : σ} {t : τ} (h : R s t) (ops : List ι) : answers step s ops = answers step' t ops := by
  induction ops generalizing s t with
  | nil => rfl
  | cons op ops ih =>
    obtain ⟨hanswer, hnext⟩ := hstep s t op h
    show (step s op).2 :: _ = (step' t op).2 :: _
    rw [hanswer, ih hnext]

end SaccoPlatform.Lib
