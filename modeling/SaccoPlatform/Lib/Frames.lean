import SaccoPlatform.Lib.Runs
import SaccoPlatform.Lib.Session
import Mathlib.Order.Defs.Unbundled

/-!
# Frame rules

`Moves R x` says that the call `x` changes the session only by `R`, whether it returns or
raises; an aborted call leaves nothing to speak of. `R` is a preorder, typically "everything
but these tables is unchanged", and the rules follow the way calls are composed.
-/

namespace SaccoPlatform.Lib.Session

variable {σ ε α β : Type} {R : σ → σ → Prop}

/-- However the call ends when it starts in `s`, the session moved by `R`. -/
def MovesFrom (R : σ → σ → Prop) (x : Session σ ε α) (s : σ) : Prop :=
  (∀ a s', x s = .ok a s' → R s s') ∧ (∀ e s', x s = .raised e s' → R s s')

/-- However the call ends, the session moved by `R`. -/
def Moves (R : σ → σ → Prop) (x : Session σ ε α) : Prop := ∀ s, MovesFrom R x s

theorem MovesFrom.imp {R' : σ → σ → Prop} {x : Session σ ε α} {s : σ} (h : MovesFrom R x s)
    (hR : ∀ s', R s s' → R' s s') : MovesFrom R' x s :=
  ⟨fun a s' hx => hR s' (h.1 a s' hx), fun e s' hx => hR s' (h.2 e s' hx)⟩

theorem Moves.ok {x : Session σ ε α} (h : Moves R x) {s s' : σ} {a : α}
    (hx : x s = .ok a s') : R s s' := (h s).1 a s' hx

theorem Moves.raised {x : Session σ ε α} (h : Moves R x) {s s' : σ} {e : ε}
    (hx : x s = .raised e s') : R s s' := (h s).2 e s' hx

/-- A coarser relation holds as well. -/
theorem Moves.mono {R' : σ → σ → Prop} {x : Session σ ε α} (h : Moves R x)
    (hR : ∀ s s', R s s' → R' s s') : Moves R' x := fun s => (h s).imp (hR s)

theorem moves_modify {f : σ → σ} (h : ∀ s, R s (f s)) :
    Moves R (modify f : Session σ ε Unit) := by
  intro s
  refine ⟨?_, ?_⟩
  · intro a s' hx
    rw [modify_apply] at hx
    cases hx
    exact h s
  · intro e s' hx
    rw [modify_apply] at hx
    cases hx

theorem moves_abort {e : ε} : Moves R (abort e : Session σ ε α) := by
  intro s
  refine ⟨?_, ?_⟩ <;> intro _ _ hx <;> rw [abort_apply] at hx <;> cases hx

section Refl

variable [Std.Refl R]

theorem moves_pure (a : α) : Moves R (pure a : Session σ ε α) := by
  intro s
  refine ⟨?_, ?_⟩
  · intro b s' hx
    obtain ⟨-, rfl⟩ := pure_eq_ok.mp hx
    exact refl_of R s
  · intro e s' hx
    rw [pure_apply] at hx
    cases hx

theorem moves_get : Moves R (get : Session σ ε σ) := by
  intro s
  refine ⟨?_, ?_⟩
  · intro b s' hx
    obtain ⟨-, rfl⟩ := get_eq_ok.mp hx
    exact refl_of R s'
  · intro e s' hx
    rw [get_apply] at hx
    cases hx

theorem moves_raise (e : ε) : Moves R (raise e : Session σ ε α) := by
  intro s
  refine ⟨?_, ?_⟩
  · intro b s' hx
    rw [raise_apply] at hx
    cases hx
  · intro e s' hx
    rw [raise_apply] at hx
    cases hx
    exact refl_of R s

theorem moves_require (p : Prop) [Decidable p] (e : ε) :
    Moves R (require p e : Session σ ε Unit) := by
  unfold require
  split
  · exact moves_pure ()
  · exact moves_raise e

theorem moves_constraint (p : Prop) [Decidable p] (e : ε) :
    Moves R (constraint p e : Session σ ε Unit) := by
  unfold constraint
  split
  · exact moves_pure ()
  · exact moves_abort

theorem moves_orRaise (o : Option α) (e : ε) : Moves R (orRaise o e : Session σ ε α) := by
  unfold orRaise
  split
  · exact moves_pure _
  · exact moves_raise e

theorem moves_ofExcept (x : Except ε α) : Moves R (ofExcept x : Session σ ε α) := by
  unfold ofExcept
  split
  · exact moves_pure _
  · exact moves_raise _

theorem moves_when {p : Prop} [Decidable p] {x : Session σ ε Unit} (h : Moves R x) :
    Moves R (when p x) := by
  unfold when
  split
  · exact h
  · exact moves_pure ()

/-- A savepoint keeps the body's changes or none. -/
theorem moves_savepoint {x : Session σ ε α} (h : Moves R x) : Moves R (savepoint x) := by
  intro s
  refine ⟨?_, ?_⟩
  · intro b s' hx
    rcases savepoint_cases x s with ⟨a, s₁, hok, heq⟩ | heq
    · rw [heq] at hx
      cases hx
      exact h.ok hok
    · rw [heq] at hx
      cases hx
      exact refl_of R s
  · intro e s' hx
    rcases savepoint_cases x s with ⟨a, s₁, hok, heq⟩ | heq <;> rw [heq] at hx <;> cases hx

/-- A committed call moves the durable tables as far as it moved the session. -/
theorem MovesFrom.commit {x : Session σ ε α} {s : σ} (h : MovesFrom R x s) :
    R s (Session.commit x s) := by
  rcases commit_cases x s with ⟨a, s', hok, heq⟩ | heq
  · rw [heq]
    exact h.1 a s' hok
  · rw [heq]
    exact refl_of R s

/-- Also when its exceptions are swallowed. -/
theorem MovesFrom.commit_attempt {x : Session σ ε α} {s : σ} (h : MovesFrom R x s) :
    R s (Session.commit (attempt x) s) := by
  rcases commit_attempt_cases x s with ⟨a, s', hok, heq⟩ | ⟨e, s', hraised, heq⟩ | heq
  · rw [heq]
    exact h.1 a s' hok
  · rw [heq]
    exact h.2 e s' hraised
  · rw [heq]
    exact refl_of R s

theorem moves_commit {x : Session σ ε α} (h : Moves R x) (s : σ) : R s (commit x s) := (h s).commit

end Refl

/-- Swallowing an exception keeps the body's changes. -/
theorem moves_attempt {x : Session σ ε α} (h : Moves R x) : Moves R (attempt x) := by
  intro s
  unfold MovesFrom attempt
  cases hx : x s with
  | ok a s₁ =>
    refine ⟨?_, nofun⟩
    rintro b s' ⟨⟩
    exact h.ok hx
  | raised e s₁ =>
    refine ⟨?_, nofun⟩
    rintro b s' ⟨⟩
    exact h.raised hx
  | aborted e => exact ⟨nofun, nofun⟩

/-- Sequencing. -/
theorem moves_bind [IsTrans σ R] {x : Session σ ε α} {f : α → Session σ ε β} (hx : Moves R x)
    (hf : ∀ a, Moves R (f a)) : Moves R (x >>= f) := by
  intro s
  refine ⟨?_, ?_⟩
  · intro b s' h
    obtain ⟨a, s₁, h₁, h₂⟩ := bind_eq_ok.mp h
    exact trans_of R (hx.ok h₁) ((hf a).ok h₂)
  · intro e s' h
    rcases bind_eq_raised.mp h with h₁ | ⟨a, s₁, h₁, h₂⟩
    · exact hx.raised h₁
    · exact trans_of R (hx.ok h₁) ((hf a).raised h₂)

/-- What `f` reads is as before. -/
def Keeps {τ : Type} (f : σ → τ) (s s' : σ) : Prop := f s' = f s

instance {τ : Type} (f : σ → τ) : IsPreorder σ (Keeps f) where
  refl _ := rfl
  trans _ _ _ h h' := Eq.trans h' h

/-! ## Calls that never raise -/

/-- The call returns or is aborted; it has no exception of its own. -/
def NeverRaises (x : Session σ ε α) : Prop := ∀ s e s', x s ≠ .raised e s'

theorem neverRaises_pure (a : α) : NeverRaises (pure a : Session σ ε α) := by
  intro s e s' h
  rw [pure_apply] at h
  cases h

theorem neverRaises_get : NeverRaises (get : Session σ ε σ) := by
  intro s e s' h
  rw [get_apply] at h
  cases h

theorem neverRaises_modify (f : σ → σ) : NeverRaises (modify f : Session σ ε Unit) := by
  intro s e s' h
  rw [modify_apply] at h
  cases h

theorem neverRaises_abort (e : ε) : NeverRaises (abort e : Session σ ε α) := by
  intro s e' s' h
  rw [abort_apply] at h
  cases h

theorem neverRaises_constraint (p : Prop) [Decidable p] (e : ε) :
    NeverRaises (constraint p e : Session σ ε Unit) := by
  unfold constraint
  split
  · exact neverRaises_pure ()
  · exact neverRaises_abort e

theorem neverRaises_savepoint (x : Session σ ε α) : NeverRaises (savepoint x) := by
  intro s e s' h
  rcases savepoint_cases x s with ⟨a, s₁, -, heq⟩ | heq <;> rw [heq] at h <;> cases h

theorem neverRaises_bind {x : Session σ ε α} {f : α → Session σ ε β} (hx : NeverRaises x)
    (hf : ∀ a, NeverRaises (f a)) : NeverRaises (x >>= f) := by
  intro s e s' h
  rcases bind_eq_raised.mp h with h | ⟨a, s₁, -, h⟩
  · exact hx s e s' h
  · exact hf a s₁ e s' h

theorem neverRaises_foldEach {f : β → α → Session σ ε β} (h : ∀ b a, NeverRaises (f b a))
    (as : List α) (b : β) : NeverRaises (foldEach f as b) := by
  induction as generalizing b with
  | nil => exact neverRaises_pure b
  | cons a rest ih => exact neverRaises_bind (h b a) ih

/-- A call that never raises moves by `R` when its returns do. -/
theorem NeverRaises.moves {x : Session σ ε α} (hx : NeverRaises x)
    (h : ∀ s a s', x s = .ok a s' → R s s') : Moves R x := fun s =>
  ⟨fun a s' => h s a s', fun e s' hr => absurd hr (hx s e s')⟩

/-! ## Validate first, then write -/

/-- An exception leaves the session as the call found it. -/
def RaisesClean (x : Session σ ε α) : Prop := ∀ s e s', x s = .raised e s' → s' = s

theorem NeverRaises.raisesClean {x : Session σ ε α} (h : NeverRaises x) : RaisesClean x :=
  fun s e s' hx => absurd hx (h s e s')

theorem raisesClean_pure (a : α) : RaisesClean (pure a : Session σ ε α) :=
  (neverRaises_pure a).raisesClean

theorem raisesClean_raise (e : ε) : RaisesClean (raise e : Session σ ε α) := by
  intro s e' s' h
  rw [raise_apply] at h
  cases h
  rfl

/-- Reading first changes nothing about what an exception leaves. -/
theorem raisesClean_get_bind {f : σ → Session σ ε β} (h : ∀ s, RaisesClean (f s)) :
    RaisesClean (get >>= f) := fun s e s' hx => h s s e s' hx

theorem raisesClean_orRaise_bind {o : Option α} {e : ε} {f : α → Session σ ε β}
    (h : ∀ a, o = some a → RaisesClean (f a)) : RaisesClean (orRaise o e >>= f) := by
  cases o with
  | none => exact raisesClean_raise e
  | some a => exact h a rfl

theorem raisesClean_require_bind {p : Prop} [Decidable p] {e : ε} {f : Unit → Session σ ε β}
    (h : p → RaisesClean (f ())) : RaisesClean (require p e >>= f) := by
  unfold require
  split
  · rename_i hp
    exact h hp
  · exact raisesClean_raise e

theorem raisesClean_ofExcept_bind {x : Except ε α} {f : α → Session σ ε β}
    (h : ∀ a, RaisesClean (f a)) : RaisesClean (ofExcept x >>= f) := by
  cases x with
  | error e => exact raisesClean_raise e
  | ok a => exact h a

/-- After the writes have begun nothing may raise. -/
theorem raisesClean_bind_neverRaises {x : Session σ ε α} {f : α → Session σ ε β}
    (hx : RaisesClean x) (hf : ∀ a, NeverRaises (f a)) : RaisesClean (x >>= f) := by
  intro s e s' h
  rcases bind_eq_raised.mp h with h | ⟨a, s₁, -, h⟩
  · exact hx s e s' h
  · exact absurd h (hf a s₁ e s')

/-! ## Calls that start in a known state -/

theorem movesFrom_get_bind {f : σ → Session σ ε β} {s : σ} (h : MovesFrom R (f s) s) :
    MovesFrom R (get >>= f) s := h

theorem movesFrom_orRaise_bind [Std.Refl R] {o : Option α} {e : ε} {f : α → Session σ ε β}
    {s : σ} (h : ∀ a, o = some a → MovesFrom R (f a) s) : MovesFrom R (orRaise o e >>= f) s := by
  cases o with
  | none => exact moves_raise e s
  | some a => exact h a rfl

/-- A result that is computed from the last call and changes nothing. -/
theorem MovesFrom.map {x : Session σ ε α} {s : σ} (h : MovesFrom R x s) (g : α → β) :
    MovesFrom R (x >>= fun a => pure (g a)) s := by
  refine ⟨?_, ?_⟩
  · intro b s' hb
    obtain ⟨a, s₁, hx, hpure⟩ := bind_eq_ok.mp hb
    obtain ⟨-, rfl⟩ := pure_eq_ok.mp hpure
    exact h.1 a s₁ hx
  · intro e s' he
    rcases bind_eq_raised.mp he with hx | ⟨a, s₁, -, hpure⟩
    · exact h.2 e s' hx
    · exact absurd hpure (neverRaises_pure _ _ _ _)

/-- A body that depends on what it read, followed by calls that never raise. -/
theorem movesFrom_bind_of_neverRaises {x : Session σ ε α} {f : α → Session σ ε β} {s : σ}
    (hx : ∀ e s', x s = .raised e s' → R s s') (hf : ∀ a, NeverRaises (f a))
    (h : ∀ a s₁ b s', x s = .ok a s₁ → f a s₁ = .ok b s' → R s s') :
    MovesFrom R (x >>= f) s := by
  refine ⟨?_, ?_⟩
  · intro b s' hb
    obtain ⟨a, s₁, h₁, h₂⟩ := bind_eq_ok.mp hb
    exact h a s₁ b s' h₁ h₂
  · intro e s' he
    rcases bind_eq_raised.mp he with he | ⟨a, s₁, -, he⟩
    · exact hx e s' he
    · exact absurd he (hf a s₁ e s')

/-! ## Loops -/

variable [IsPreorder σ R]

theorem moves_foldEach {f : β → α → Session σ ε β} {as : List α}
    (h : ∀ b, ∀ a ∈ as, Moves R (f b a)) (b : β) : Moves R (foldEach f as b) := by
  induction as generalizing b with
  | nil => exact moves_pure b
  | cons a rest ih =>
    apply moves_bind (h b a List.mem_cons_self)
    exact ih fun b a ha => h b a (List.mem_cons_of_mem _ ha)

theorem moves_forEach {f : α → Session σ ε Unit} {as : List α} (h : ∀ a ∈ as, Moves R (f a)) :
    Moves R (forEach f as) := by
  induction as with
  | nil => exact moves_pure ()
  | cons a rest ih =>
    apply moves_bind (h a List.mem_cons_self)
    intro _
    exact ih fun a ha => h a (List.mem_cons_of_mem _ ha)

/-! ## Loops of savepoints -/

/-- Behind a savepoint stands what committing its body would leave. -/
theorem savepoint_commit {x : Session σ ε α} {s s' : σ} {o : Option α}
    (h : savepoint x s = .ok o s') : s' = commit x s := by
  unfold savepoint at h
  unfold commit
  cases hx : x s with
  | ok a s₁ =>
    rw [hx] at h
    cases h
    rfl
  | raised e s₁ =>
    rw [hx] at h
    cases h
    rfl
  | aborted e =>
    rw [hx] at h
    cases h
    rfl

/-- A loop with a savepoint around every round is a run of the rounds. -/
theorem foldEach_savepoint {x : α → Session σ ε β} {g : γ → Option β → γ} {as : List α} {c c' : γ}
    {s s' : σ}
    (h : foldEach (fun c a => savepoint (x a) >>= fun o => pure (g c o)) as c s = .ok c' s') :
    s' = run (fun s a => commit (x a) s) s as := by
  induction as generalizing c s with
  | nil => exact (pure_eq_ok.mp h).2.symm
  | cons a rest ih =>
    obtain ⟨c₁, s₁, hround, hrest⟩ := bind_eq_ok.mp h
    obtain ⟨o, s₂, hsp, hpure⟩ := bind_eq_ok.mp hround
    obtain ⟨-, rfl⟩ := pure_eq_ok.mp hpure
    rw [run_cons, ← savepoint_commit hsp]
    exact ih hrest

/-- The same for a loop that keeps nothing but the state. -/
theorem forEach_savepoint (x : α → Session σ ε β) (as : List α) (s : σ) :
    forEach (fun a => savepoint (x a) >>= fun _ => pure ()) as s
      = .ok () (run (fun s a => commit (x a) s) s as) := by
  induction as generalizing s with
  | nil => rfl
  | cons a rest ih =>
    have hround : (savepoint (x a) >>= fun _ => pure ()) s = .ok () (commit (x a) s) := by
      rw [bind_apply]
      unfold savepoint commit
      cases x a s <;> rfl
    rw [forEach, bind_apply, hround, run_cons]
    exact ih (commit (x a) s)

/-! ## Loops in which every round has a key of its own -/

section Keys

variable {κ ν : Type} {f : α → Session σ ε Unit} (key : α → κ) (view : σ → κ → ν) {as : List α}

/-- Each round leaves alone what the other keys see: the round of a key starts from what its key saw
before the loop, and what it leaves there stands after the loop. -/
theorem forEach_view (hnodup : (as.map key).Nodup)
    (hother : ∀ a ∈ as, ∀ k, k ≠ key a → ∀ u s s', f a s = .ok u s' → view s' k = view s k)
    {s s' : σ} {u : Unit} (h : forEach f as s = .ok u s') (k : κ) :
    (k ∉ as.map key ∧ view s' k = view s k) ∨
      ∃ a ∈ as, key a = k ∧ ∃ u s₁ s₂, f a s₁ = .ok u s₂ ∧ view s₁ k = view s k ∧
        view s' k = view s₂ k := by
  induction as generalizing s with
  | nil =>
    obtain ⟨-, rfl⟩ := pure_eq_ok.mp h
    exact .inl ⟨List.not_mem_nil, rfl⟩
  | cons a rest ih =>
    obtain ⟨u₁, s₁, hround, hrest⟩ := bind_eq_ok.mp h
    rw [List.map_cons, List.nodup_cons] at hnodup
    have hlater := ih hnodup.2 (fun b hb => hother b (List.mem_cons_of_mem _ hb)) hrest
    by_cases hk : k = key a
    · -- the round of this key is the first one, and no later one is its own
      subst hk
      obtain ⟨-, hsame⟩ | ⟨b, hb, hkey, -⟩ := hlater
      · exact .inr ⟨a, List.mem_cons_self, rfl, u₁, s, s₁, hround, rfl, hsame⟩
      · exact absurd (hkey ▸ List.mem_map_of_mem hb) hnodup.1
    · have hfirst : view s₁ k = view s k :=
        hother a List.mem_cons_self k hk u₁ s s₁ hround
      obtain ⟨hnot, hsame⟩ | ⟨b, hb, hkey, u₂, s₂, s₃, hown, hbefore, hafter⟩ := hlater
      · refine .inl ⟨?_, hsame.trans hfirst⟩
        rw [List.map_cons, List.mem_cons, not_or]
        exact ⟨hk, hnot⟩
      · exact .inr ⟨b, List.mem_cons_of_mem _ hb, hkey, u₂, s₂, s₃, hown, hbefore.trans hfirst,
          hafter⟩

/-- The loop returns when every round does from what its own key saw before the loop. -/
theorem forEach_returns (hnodup : (as.map key).Nodup)
    (hother : ∀ a ∈ as, ∀ k, k ≠ key a → ∀ u s s', f a s = .ok u s' → view s' k = view s k) {s : σ}
    (hown : ∀ a ∈ as, ∀ s₁, view s₁ (key a) = view s (key a) → ∃ u s₂, f a s₁ = .ok u s₂) :
    ∃ u s', forEach f as s = .ok u s' := by
  induction as generalizing s with
  | nil => exact ⟨(), s, rfl⟩
  | cons a rest ih =>
    rw [List.map_cons, List.nodup_cons] at hnodup
    obtain ⟨u₁, s₁, hround⟩ := hown a List.mem_cons_self s rfl
    have hlater : ∃ u s', forEach f rest s₁ = .ok u s' := by
      refine ih hnodup.2 (fun b hb => hother b (List.mem_cons_of_mem _ hb)) ?_
      intro b hb s₂ hsame
      have hne : key b ≠ key a := fun heq => hnodup.1 (heq ▸ List.mem_map_of_mem hb)
      have hfirst : view s₁ (key b) = view s (key b) :=
        hother a List.mem_cons_self (key b) hne u₁ s s₁ hround
      exact hown b (List.mem_cons_of_mem _ hb) s₂ (hsame.trans hfirst)
    obtain ⟨u, s', hrest⟩ := hlater
    exact ⟨u, s', bind_eq_ok.mpr ⟨u₁, s₁, hround, hrest⟩⟩

end Keys

end SaccoPlatform.Lib.Session
