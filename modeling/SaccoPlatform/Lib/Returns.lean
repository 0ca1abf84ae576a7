import SaccoPlatform.Lib.Session
import Mathlib.Order.Defs.Unbundled

/-!
# Calls that return

Whether a call returns, without saying what. Each rule peels one statement off a sequence, so that
a service method turns into the conditions under which it goes through.
-/

namespace SaccoPlatform.Lib.Session

variable {σ ε α β : Type}

/-- The call returns. -/
def Returns (x : Session σ ε α) (s : σ) : Prop := ∃ a s', x s = .ok a s'

instance (x : Session σ ε α) (s : σ) : Decidable (Returns x s) :=
  match h : x s with
  | .ok a s' => isTrue ⟨a, s', h⟩
  | .raised _ _ => isFalse fun ⟨_, _, hok⟩ => nomatch h.symm.trans hok
  | .aborted _ => isFalse fun ⟨_, _, hok⟩ => nomatch h.symm.trans hok

@[simp] theorem returns_pure (a : α) (s : σ) : Returns (pure a : Session σ ε α) s := ⟨a, s, rfl⟩

theorem returns_bind {x : Session σ ε α} {f : α → Session σ ε β} {s : σ} :
    Returns (x >>= f) s ↔ ∃ a s', x s = .ok a s' ∧ Returns (f a) s' := by
  constructor
  · rintro ⟨b, s'', h⟩
    obtain ⟨a, s', hx, hf⟩ := bind_eq_ok.mp h
    exact ⟨a, s', hx, b, s'', hf⟩
  · rintro ⟨a, s', hx, b, s'', hf⟩
    exact ⟨b, s'', bind_eq_ok.mpr ⟨a, s', hx, hf⟩⟩

/-- A call that returns goes on with what it returned. -/
theorem Returns.bind {x : Session σ ε α} {f : α → Session σ ε β} {s : σ} (h : Returns x s)
    (hf : ∀ a s', x s = .ok a s' → Returns (f a) s') : Returns (x >>= f) s := by
  obtain ⟨a, s', hx⟩ := h
  exact returns_bind.mpr ⟨a, s', hx, hf a s' hx⟩

@[simp] theorem returns_get_bind {f : σ → Session σ ε β} {s : σ} :
    Returns (get >>= f) s ↔ Returns (f s) s := Iff.rfl

@[simp] theorem returns_modify_bind {g : σ → σ} {f : Unit → Session σ ε β} {s : σ} :
    Returns (modify g >>= f) s ↔ Returns (f ()) (g s) := Iff.rfl

@[simp] theorem returns_require_bind {p : Prop} [Decidable p] {e : ε} {f : Unit → Session σ ε β}
    {s : σ} : Returns (require p e >>= f) s ↔ p ∧ Returns (f ()) s := by
  simp only [Returns, require_bind_eq_ok]
  constructor
  · rintro ⟨b, s', hp, h⟩
    exact ⟨hp, b, s', h⟩
  · rintro ⟨hp, b, s', h⟩
    exact ⟨b, s', hp, h⟩

@[simp] theorem returns_constraint_bind {p : Prop} [Decidable p] {e : ε}
    {f : Unit → Session σ ε β} {s : σ} :
    Returns (constraint p e >>= f) s ↔ p ∧ Returns (f ()) s := by
  simp only [Returns, constraint_bind_eq_ok]
  constructor
  · rintro ⟨b, s', hp, h⟩
    exact ⟨hp, b, s', h⟩
  · rintro ⟨hp, b, s', h⟩
    exact ⟨b, s', hp, h⟩

@[simp] theorem returns_orRaise_bind {o : Option α} {e : ε} {f : α → Session σ ε β} {s : σ} :
    Returns (orRaise o e >>= f) s ↔ ∃ a, o = some a ∧ Returns (f a) s := by
  simp only [Returns, orRaise_bind_eq_ok]
  constructor
  · rintro ⟨b, s', a, ho, h⟩
    exact ⟨a, ho, b, s', h⟩
  · rintro ⟨a, ho, b, s', h⟩
    exact ⟨b, s', a, ho, h⟩

@[simp] theorem returns_orAbort_bind {o : Option α} {e : ε} {f : α → Session σ ε β} {s : σ} :
    Returns (orAbort o e >>= f) s ↔ ∃ a, o = some a ∧ Returns (f a) s := by
  simp only [Returns, orAbort_bind_eq_ok]
  constructor
  · rintro ⟨b, s', a, ho, h⟩
    exact ⟨a, ho, b, s', h⟩
  · rintro ⟨a, ho, b, s', h⟩
    exact ⟨b, s', a, ho, h⟩

@[simp] theorem returns_ofExcept_bind {x : Except ε α} {f : α → Session σ ε β} {s : σ} :
    Returns (ofExcept x >>= f) s ↔ ∃ a, x = .ok a ∧ Returns (f a) s := by
  simp only [Returns, ofExcept_bind_eq_ok]
  constructor
  · rintro ⟨b, s', a, ho, h⟩
    exact ⟨a, ho, b, s', h⟩
  · rintro ⟨a, ho, b, s', h⟩
    exact ⟨b, s', a, ho, h⟩

@[simp] theorem returns_modify {g : σ → σ} {s : σ} : Returns (modify g : Session σ ε Unit) s :=
  ⟨(), g s, rfl⟩

/-- A loop whose rounds all return does. -/
theorem returns_foldEach {f : β → α → Session σ ε β} {as : List α}
    (h : ∀ b, ∀ a ∈ as, ∀ s, Returns (f b a) s) (b : β) (s : σ) : Returns (foldEach f as b) s := by
  induction as generalizing b s with
  | nil => exact returns_pure b s
  | cons a as ih =>
    obtain ⟨b', s', hround⟩ := h b a List.mem_cons_self s
    refine returns_bind.mpr ⟨b', s', hround, ?_⟩
    exact ih (fun b a' ha' => h b a' (List.mem_cons_of_mem _ ha')) b' s'

/-- A loop in which every round returns and does something for its own row that later rounds leave
done. `R` is what the rounds may do, the result so far and the session together. -/
theorem foldEach_visits {f : β → α → Session σ ε β} {R : β × σ → β × σ → Prop} [IsPreorder (β × σ) R]
    {Inv : β × σ → Prop} {Done : α → β × σ → Prop} {as : List α}
    (hkeep : ∀ a p q, R p q → Done a p → Done a q)
    (hround : ∀ a ∈ as, ∀ b s, Inv (b, s) →
      ∃ b' s', f b a s = .ok b' s' ∧ Inv (b', s') ∧ R (b, s) (b', s') ∧ Done a (b', s'))
    {b : β} {s : σ} (h : Inv (b, s)) :
    ∃ b' s', foldEach f as b s = .ok b' s' ∧ Inv (b', s') ∧ R (b, s) (b', s') ∧
      ∀ a ∈ as, Done a (b', s') := by
  induction as generalizing b s with
  | nil => exact ⟨b, s, rfl, h, refl_of R _, fun a ha => absurd ha List.not_mem_nil⟩
  | cons a as ih =>
    obtain ⟨b₁, s₁, hfirst, hinv, hmove, hdone⟩ := hround a List.mem_cons_self b s h
    obtain ⟨b₂, s₂, hrest, hinv', hmove', hall⟩ :=
      ih (fun x hx => hround x (List.mem_cons_of_mem _ hx)) hinv
    refine ⟨b₂, s₂, bind_eq_ok.mpr ⟨b₁, s₁, hfirst, hrest⟩, hinv', trans_of R hmove hmove', ?_⟩
    intro x hx
    rcases List.mem_cons.mp hx with rfl | hx
    · exact hkeep x _ _ hmove' hdone
    · exact hall x hx

end SaccoPlatform.Lib.Session
