import SaccoPlatform.Lib.Frames

/-!
# Calls in lockstep

`Lockstep R x y s t` compares a call `x` on the tables `s` with a call `y` on the tables `t`:
both end in the same way, with the same result or the same error, and leave tables that are
related by `R`. The rules follow the way calls are composed, so two runs of one program on
different tables are compared statement by statement.
-/

namespace SaccoPlatform.Lib

/-- The same ending, with related tables. -/
inductive Outcome.Rel {σ τ ε α : Type} (R : σ → τ → Prop) : Outcome σ ε α → Outcome τ ε α → Prop
  | ok (a : α) {s : σ} {t : τ} (h : R s t) : Outcome.Rel R (.ok a s) (.ok a t)
  | raised (e : ε) {s : σ} {t : τ} (h : R s t) : Outcome.Rel R (.raised e s) (.raised e t)
  | aborted (e : ε) : Outcome.Rel R (.aborted e) (.aborted e)

namespace Session

variable {σ τ ε α β : Type} {R : σ → τ → Prop} {s : σ} {t : τ}

/-- The calls end in the same way and leave related tables. -/
def Lockstep (R : σ → τ → Prop) (x : Session σ ε α) (y : Session τ ε α) (s : σ) (t : τ) : Prop :=
  Outcome.Rel R (x s) (y t)

theorem lockstep_pure (h : R s t) (a : α) :
    Lockstep R (pure a : Session σ ε α) (pure a) s t := .ok a h

theorem lockstep_raise (h : R s t) (e : ε) :
    Lockstep R (raise e : Session σ ε α) (raise e) s t := .raised e h

theorem lockstep_modify {f : σ → σ} {g : τ → τ} (h : R (f s) (g t)) :
    Lockstep R (modify f : Session σ ε Unit) (modify g) s t := .ok () h

theorem lockstep_require (h : R s t) (p : Prop) [Decidable p] (e : ε) :
    Lockstep R (require p e : Session σ ε Unit) (require p e) s t := by
  unfold require
  split
  · exact lockstep_pure h ()
  · exact lockstep_raise h e

theorem lockstep_constraint (h : R s t) (p : Prop) [Decidable p] (e : ε) :
    Lockstep R (constraint p e : Session σ ε Unit) (constraint p e) s t := by
  unfold constraint
  split
  · exact lockstep_pure h ()
  · exact .aborted e

theorem lockstep_orRaise (h : R s t) (o : Option α) (e : ε) :
    Lockstep R (orRaise o e : Session σ ε α) (orRaise o e) s t := by
  cases o with
  | none => exact lockstep_raise h e
  | some a => exact lockstep_pure h a

/-- Sequencing: the second halves start in what the first halves left. -/
theorem lockstep_bind {x : Session σ ε α} {y : Session τ ε α} {f : α → Session σ ε β}
    {g : α → Session τ ε β} (hxy : Lockstep R x y s t)
    (hfg : ∀ a s' t', x s = .ok a s' → R s' t' → Lockstep R (f a) (g a) s' t') :
    Lockstep R (x >>= f) (y >>= g) s t := by
  unfold Lockstep at hxy ⊢
  rw [bind_apply, bind_apply]
  generalize hx : x s = o at hxy
  generalize y t = o' at hxy
  cases hxy with
  | ok a h => exact hfg a _ _ hx h
  | raised e h => exact .raised e h
  | aborted e => exact .aborted e

theorem lockstep_get_bind {f : σ → Session σ ε β} {g : τ → Session τ ε β}
    (h : Lockstep R (f s) (g t) s t) : Lockstep R (get >>= f) (get >>= g) s t := h

theorem lockstep_when (h : R s t) {p : Prop} [Decidable p] {x : Session σ ε Unit}
    {y : Session τ ε Unit} (hxy : Lockstep R x y s t) :
    Lockstep R (when p x) (when p y) s t := by
  unfold when
  split
  · exact hxy
  · exact lockstep_pure h ()

/-- A coarser relation holds as well. -/
theorem Lockstep.imp {R' : σ → τ → Prop} {x : Session σ ε α} {y : Session τ ε α}
    (hxy : Lockstep R x y s t) (h : ∀ s t, R s t → R' s t) : Lockstep R' x y s t := by
  unfold Lockstep at *
  generalize x s = o at *
  generalize y t = o' at *
  cases hxy with
  | ok a hst => exact .ok a (h _ _ hst)
  | raised e hst => exact .raised e (h _ _ hst)
  | aborted e => exact .aborted e

/-- What every ending of the first call leaves can be added to the relation. -/
theorem Lockstep.and {x : Session σ ε α} {y : Session τ ε α} (hxy : Lockstep R x y s t)
    {Inv : σ → Prop} (hinv : MovesFrom (fun _ s' => Inv s') x s) :
    Lockstep (fun s' t' => R s' t' ∧ Inv s') x y s t := by
  obtain ⟨hok, hraised⟩ := hinv
  unfold Lockstep at *
  generalize hx : x s = o at hxy
  generalize y t = o' at hxy
  cases hxy with
  | ok a h => exact .ok a ⟨h, hok a _ hx⟩
  | raised e h => exact .raised e ⟨h, hraised e _ hx⟩
  | aborted e => exact .aborted e

/-- Both savepoints hold, or both roll back. -/
theorem lockstep_savepoint (h : R s t) {x : Session σ ε α} {y : Session τ ε α}
    (hxy : Lockstep R x y s t) : Lockstep R (savepoint x) (savepoint y) s t := by
  unfold Lockstep savepoint at *
  generalize x s = o at hxy
  generalize y t = o' at hxy
  cases hxy with
  | ok a h' => exact .ok _ h'
  | raised e _ => exact .ok _ h
  | aborted e => exact .ok _ h

/-- Both requests commit, or both roll back. -/
theorem lockstep_commit (h : R s t) {x : Session σ ε α} {y : Session τ ε α}
    (hxy : Lockstep R x y s t) : R (commit x s) (commit y t) := by
  unfold Lockstep at hxy
  unfold commit
  generalize x s = o at hxy
  generalize y t = o' at hxy
  cases hxy with
  | ok a h' => exact h'
  | raised e _ => exact h
  | aborted e => exact h

/-- Loops over the same rows. -/
theorem lockstep_foldEach {f : β → α → Session σ ε β} {g : β → α → Session τ ε β} {as : List α}
    (hfg : ∀ b, ∀ a ∈ as, ∀ s t, R s t → Lockstep R (f b a) (g b a) s t) (h : R s t) (b : β) :
    Lockstep R (foldEach f as b) (foldEach g as b) s t := by
  induction as generalizing b s t with
  | nil => exact lockstep_pure h b
  | cons a rest ih =>
    apply lockstep_bind (hfg b a List.mem_cons_self s t h)
    intro b' s' t' _ h'
    exact ih (fun b a ha => hfg b a (List.mem_cons_of_mem _ ha)) h' b'

/-- A loop over all rows against the loop over the rows that `p` keeps: every round over
another row does nothing. -/
theorem lockstep_foldEach_filter {f : β → α → Session σ ε β} {g : β → α → Session τ ε β}
    {as : List α} {p : α → Bool}
    (hkept : ∀ b, ∀ a ∈ as, p a = true → ∀ s t, R s t → Lockstep R (f b a) (g b a) s t)
    (hskipped : ∀ b, ∀ a ∈ as, p a = false → ∀ s t, R s t → f b a s = .ok b s)
    (h : R s t) (b : β) :
    Lockstep R (foldEach f as b) (foldEach g (as.filter p) b) s t := by
  induction as generalizing b s t with
  | nil => exact lockstep_pure h b
  | cons a rest ih =>
    have ih' := fun (s' : σ) (t' : τ) (h' : R s' t') (b' : β) =>
      ih (fun b a ha => hkept b a (List.mem_cons_of_mem _ ha))
        (fun b a ha => hskipped b a (List.mem_cons_of_mem _ ha)) (s := s') (t := t') h' b'
    cases hp : p a with
    | true =>
      rw [List.filter_cons_of_pos hp]
      apply lockstep_bind (hkept b a List.mem_cons_self hp s t h)
      intro b' s' t' _ h'
      exact ih' s' t' h' b'
    | false =>
      rw [List.filter_cons_of_neg (by rw [hp]; exact Bool.false_ne_true)]
      have hstay : foldEach f (a :: rest) b s = foldEach f rest b s := by
        rw [foldEach, bind_apply, hskipped b a List.mem_cons_self hp s t h]
      unfold Lockstep
      rw [hstay]
      exact ih' s t h b

/-! ## One call on related tables -/

/-- The call does not see the difference between related tables. -/
def Respects (R : σ → τ → Prop) (x : Session σ ε α) (y : Session τ ε α) : Prop :=
  ∀ s t, R s t → Lockstep R x y s t

theorem respects_pure (a : α) : Respects R (pure a : Session σ ε α) (pure a) :=
  fun _ _ h => lockstep_pure h a

theorem respects_require (p : Prop) [Decidable p] (e : ε) :
    Respects R (require p e : Session σ ε Unit) (require p e) :=
  fun _ _ h => lockstep_require h p e

theorem respects_constraint (p : Prop) [Decidable p] (e : ε) :
    Respects R (constraint p e : Session σ ε Unit) (constraint p e) :=
  fun _ _ h => lockstep_constraint h p e

theorem respects_orRaise (o : Option α) (e : ε) :
    Respects R (orRaise o e : Session σ ε α) (orRaise o e) :=
  fun _ _ h => lockstep_orRaise h o e

theorem respects_modify {f : σ → σ} {g : τ → τ} (h : ∀ s t, R s t → R (f s) (g t)) :
    Respects R (modify f : Session σ ε Unit) (modify g) :=
  fun s t hst => lockstep_modify (h s t hst)

theorem respects_bind {x : Session σ ε α} {y : Session τ ε α} {f : α → Session σ ε β}
    {g : α → Session τ ε β} (hxy : Respects R x y) (hfg : ∀ a, Respects R (f a) (g a)) :
    Respects R (x >>= f) (y >>= g) :=
  fun s t h => lockstep_bind (hxy s t h) fun a s' t' _ h' => hfg a s' t' h'

theorem respects_get_bind {f : σ → Session σ ε β} {g : τ → Session τ ε β}
    (h : ∀ s t, R s t → Respects R (f s) (g t)) : Respects R (get >>= f) (get >>= g) :=
  fun s t hst => h s t hst s t hst

theorem respects_when {p : Prop} [Decidable p] {x : Session σ ε Unit} {y : Session τ ε Unit}
    (hxy : Respects R x y) : Respects R (when p x) (when p y) :=
  fun s t h => lockstep_when h (hxy s t h)

end Session

end SaccoPlatform.Lib
