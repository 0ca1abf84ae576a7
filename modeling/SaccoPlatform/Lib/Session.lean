import Mathlib.Logic.Basic
import Mathlib.Tactic.Common

/-!
# Programs inside an open database session

A service method runs inside a session whose changes become durable only when the caller
commits. It can end in three ways, and the difference between the last two decides what a
caller that swallows exceptions commits:

* `ok`: the call returned;
* `raised`: program code raised, and the session keeps every change made so far, so a
  later commit still writes them;
* `aborted`: the database refused a statement (a constraint, an overflow), after which the
  transaction can only be rolled back.

Constraint checks are made where a row is written. The database makes them at the next
flush, which comes at the latest with the commit; nothing takes a refused row back out of
the session in between, so both places end in the same rollback.
-/

namespace SaccoPlatform.Lib

/-- A sequence of checks passes when each does. -/
theorem except_bind_eq_ok {ε α β : Type} {x : Except ε α} {f : α → Except ε β} {b : β} :
    (x >>= f) = .ok b ↔ ∃ a, x = .ok a ∧ f a = .ok b := by
  cases x with
  | error e => exact ⟨nofun, fun ⟨_, h, _⟩ => nomatch h⟩
  | ok a =>
    constructor
    · exact fun h => ⟨a, rfl, h⟩
    · rintro ⟨_, ⟨⟩, h⟩
      exact h

/-- How a call inside an open session ends. -/
inductive Outcome (σ ε α : Type) where
  | ok (a : α) (s : σ)
  | raised (e : ε) (s : σ)
  | aborted (e : ε)
deriving DecidableEq, Repr

/-- A call that reads and writes the tables `σ` of the open session. -/
def Session (σ ε α : Type) : Type := σ → Outcome σ ε α

namespace Session

variable {σ τ ε α β : Type}

instance : Monad (Session σ ε) where
  pure a := fun s => .ok a s
  bind x f := fun s =>
    match x s with
    | .ok a s' => f a s'
    | .raised e s' => .raised e s'
    | .aborted e => .aborted e

/-- The tables as the session sees them, its own pending changes included. -/
def get : Session σ ε σ := fun s => .ok s s

def modify (f : σ → σ) : Session σ ε Unit := fun s => .ok () (f s)

/-- An exception of program code: the pending changes stay in the session. -/
def raise (e : ε) : Session σ ε α := fun s => .raised e s

/-- A statement the database refuses. -/
def abort (e : ε) : Session σ ε α := fun _ => .aborted e

/-- `if not p: raise e`. -/
def require (p : Prop) [Decidable p] (e : ε) : Session σ ε Unit :=
  if p then pure () else raise e

/-- A constraint of the schema, checked when the row is written. -/
def constraint (p : Prop) [Decidable p] (e : ε) : Session σ ε Unit :=
  if p then pure () else abort e

/-- `if p: x`. -/
def when (p : Prop) [Decidable p] (x : Session σ ε Unit) : Session σ ε Unit :=
  if p then x else pure ()

/-- A lookup whose caller raises when there is no row. -/
def orRaise (o : Option α) (e : ε) : Session σ ε α :=
  match o with
  | some a => pure a
  | none => raise e

/-- A value that the database refuses to store when there is none. -/
def orAbort (o : Option α) (e : ε) : Session σ ε α :=
  match o with
  | some a => pure a
  | none => abort e

/-- A pure computation that may raise. -/
def ofExcept (x : Except ε α) : Session σ ε α :=
  match x with
  | .ok a => pure a
  | .error e => raise e

/-- A loop over rows with an accumulator. -/
def foldEach (f : β → α → Session σ ε β) : List α → β → Session σ ε β
  | [], b => pure b
  | a :: rest, b => f b a >>= foldEach f rest

/-- A loop over rows. -/
def forEach (f : α → Session σ ε Unit) : List α → Session σ ε Unit
  | [] => pure ()
  | a :: rest => f a >>= fun _ => forEach f rest

/-- `try: ... except Exception` in the same session, without a savepoint: the handler
continues with whatever the body had already changed. -/
def attempt (x : Session σ ε α) : Session σ ε (Except ε α) := fun s =>
  match x s with
  | .ok a s' => .ok (.ok a) s'
  | .raised e s' => .ok (.error e) s'
  | .aborted e => .aborted e

/-- `try: x; except Exception: handler; raise`. -/
def reraise (x : Session σ ε α) (handler : Session σ ε Unit) : Session σ ε α := do
  match ← attempt x with
  | .ok a => pure a
  | .error e =>
    handler
    raise e

/-- `try: async with session.begin_nested(): ... except Exception`: every failure rolls
back to the savepoint and the caller continues. -/
def savepoint (x : Session σ ε α) : Session σ ε (Option α) := fun s =>
  match x s with
  | .ok a s' => .ok (some a) s'
  | .raised _ _ => .ok none s
  | .aborted _ => .ok none s

/-- What is durable once the request that ran `x` is over: its changes when it returned,
nothing otherwise. -/
def commit (x : Session σ ε α) (s : σ) : σ :=
  match x s with
  | .ok _ s' => s'
  | .raised _ _ => s
  | .aborted _ => s

/-! ## How the operations compute -/

@[simp] theorem pure_apply (a : α) (s : σ) : (pure a : Session σ ε α) s = .ok a s := rfl

@[simp] theorem get_apply (s : σ) : (get : Session σ ε σ) s = .ok s s := rfl

@[simp] theorem modify_apply (f : σ → σ) (s : σ) :
    (modify f : Session σ ε Unit) s = .ok () (f s) := rfl

@[simp] theorem raise_apply (e : ε) (s : σ) : (raise e : Session σ ε α) s = .raised e s := rfl

@[simp] theorem abort_apply (e : ε) (s : σ) : (abort e : Session σ ε α) s = .aborted e := rfl

theorem bind_apply (x : Session σ ε α) (f : α → Session σ ε β) (s : σ) :
    (x >>= f) s =
      match x s with
      | .ok a s' => f a s'
      | .raised e s' => .raised e s'
      | .aborted e => .aborted e := rfl

/-- A sequence returns exactly when both halves do. -/
theorem bind_eq_ok {x : Session σ ε α} {f : α → Session σ ε β} {s s' : σ} {b : β} :
    (x >>= f) s = .ok b s' ↔ ∃ a s₁, x s = .ok a s₁ ∧ f a s₁ = .ok b s' := by
  rw [bind_apply]
  cases x s with
  | ok a s₁ =>
    constructor
    · intro h
      exact ⟨a, s₁, rfl, h⟩
    · rintro ⟨a', s₂, h, hf⟩
      cases h
      exact hf
  | raised e s₁ => simp
  | aborted e => simp

/-- A sequence raises in its first half, or in its second half after the first returned. -/
theorem bind_eq_raised {x : Session σ ε α} {f : α → Session σ ε β} {s s' : σ} {e : ε} :
    (x >>= f) s = .raised e s' ↔
      x s = .raised e s' ∨ ∃ a s₁, x s = .ok a s₁ ∧ f a s₁ = .raised e s' := by
  rw [bind_apply]
  cases x s with
  | ok a s₁ =>
    constructor
    · intro h
      exact .inr ⟨a, s₁, rfl, h⟩
    · rintro (h | ⟨a', s₂, h, hf⟩)
      · cases h
      · cases h
        exact hf
  | raised e s₁ => simp
  | aborted e => simp

theorem pure_eq_ok {a b : α} {s s' : σ} :
    (pure a : Session σ ε α) s = .ok b s' ↔ a = b ∧ s = s' := by simp

theorem get_eq_ok {s s' a : σ} :
    (get : Session σ ε σ) s = .ok a s' ↔ a = s ∧ s' = s := by
  simp [eq_comm]

theorem modify_eq_ok {f : σ → σ} {s s' : σ} {u : Unit} :
    (modify f : Session σ ε Unit) s = .ok u s' ↔ s' = f s := by
  simp [eq_comm]

theorem require_eq_ok {p : Prop} [Decidable p] {e : ε} {s s' : σ} {u : Unit} :
    (require p e : Session σ ε Unit) s = .ok u s' ↔ p ∧ s' = s := by
  unfold require
  by_cases h : p <;> simp [h, eq_comm]

theorem orRaise_eq_ok {o : Option α} {e : ε} {s s' : σ} {a : α} :
    (orRaise o e : Session σ ε α) s = .ok a s' ↔ o = some a ∧ s' = s := by
  unfold orRaise
  cases o <;> simp [eq_comm]

/-! ### Sequences that start with a primitive

Peeling one of these off a sequence that returned leaves what the primitive established and
the rest of the sequence in the state the primitive left. -/

@[simp] theorem get_bind_eq_ok {f : σ → Session σ ε β} {s s' : σ} {b : β} :
    (get >>= f) s = .ok b s' ↔ f s s = .ok b s' := Iff.rfl

@[simp] theorem modify_bind_eq_ok {g : σ → σ} {f : Unit → Session σ ε β} {s s' : σ} {b : β} :
    (modify g >>= f) s = .ok b s' ↔ f () (g s) = .ok b s' := Iff.rfl

@[simp] theorem pure_bind_eq_ok {a : α} {f : α → Session σ ε β} {s s' : σ} {b : β} :
    (pure a >>= f : Session σ ε β) s = .ok b s' ↔ f a s = .ok b s' := Iff.rfl

@[simp] theorem require_bind_eq_ok {p : Prop} [Decidable p] {e : ε} {f : Unit → Session σ ε β}
    {s s' : σ} {b : β} : (require p e >>= f) s = .ok b s' ↔ p ∧ f () s = .ok b s' := by
  rw [bind_apply]
  by_cases h : p <;> simp [require, h]

@[simp] theorem constraint_bind_eq_ok {p : Prop} [Decidable p] {e : ε}
    {f : Unit → Session σ ε β} {s s' : σ} {b : β} :
    (constraint p e >>= f) s = .ok b s' ↔ p ∧ f () s = .ok b s' := by
  rw [bind_apply]
  by_cases h : p <;> simp [constraint, h]

@[simp] theorem orRaise_bind_eq_ok {o : Option α} {e : ε} {f : α → Session σ ε β} {s s' : σ}
    {b : β} : (orRaise o e >>= f) s = .ok b s' ↔ ∃ a, o = some a ∧ f a s = .ok b s' := by
  rw [bind_apply]
  cases o <;> simp [orRaise]

@[simp] theorem orAbort_bind_eq_ok {o : Option α} {e : ε} {f : α → Session σ ε β} {s s' : σ}
    {b : β} : (orAbort o e >>= f) s = .ok b s' ↔ ∃ a, o = some a ∧ f a s = .ok b s' := by
  rw [bind_apply]
  cases o <;> simp [orAbort]

theorem orAbort_eq_ok {o : Option α} {e : ε} {s s' : σ} {a : α} :
    (orAbort o e : Session σ ε α) s = .ok a s' ↔ o = some a ∧ s' = s := by
  unfold orAbort
  cases o <;> simp [eq_comm]

/-- What returns needs no handler. -/
theorem reraise_eq_ok {x : Session σ ε α} {handler : Session σ ε Unit} {s s' : σ} {a : α} :
    reraise x handler s = .ok a s' ↔ x s = .ok a s' := by
  unfold reraise
  rw [bind_apply]
  unfold attempt
  cases x s with
  | ok a₁ s₁ => rfl
  | raised e s₁ =>
    show (handler >>= fun _ => raise e) s₁ = .ok a s' ↔ _
    rw [bind_apply]
    cases handler s₁ <;> simp
  | aborted e => simp

@[simp] theorem ofExcept_bind_eq_ok {x : Except ε α} {f : α → Session σ ε β} {s s' : σ} {b : β} :
    (ofExcept x >>= f) s = .ok b s' ↔ ∃ a, x = .ok a ∧ f a s = .ok b s' := by
  rw [bind_apply]
  cases x <;> simp [ofExcept]

/-! ### Where such a sequence raises -/

theorem get_bind_eq_raised {f : σ → Session σ ε β} {s s' : σ} {e : ε} :
    (get >>= f) s = .raised e s' ↔ f s s = .raised e s' := Iff.rfl

theorem modify_bind_eq_raised {g : σ → σ} {f : Unit → Session σ ε β} {s s' : σ} {e : ε} :
    (modify g >>= f) s = .raised e s' ↔ f () (g s) = .raised e s' := Iff.rfl

theorem orRaise_bind_eq_raised {o : Option α} {e₀ e : ε} {f : α → Session σ ε β} {s s' : σ} :
    (orRaise o e₀ >>= f) s = .raised e s' ↔
      (o = none ∧ e₀ = e ∧ s = s') ∨ ∃ a, o = some a ∧ f a s = .raised e s' := by
  rw [bind_apply]
  cases o <;> simp [orRaise]

theorem require_bind_eq_raised {p : Prop} [Decidable p] {e₀ e : ε} {f : Unit → Session σ ε β}
    {s s' : σ} : (require p e₀ >>= f) s = .raised e s' ↔
      (¬ p ∧ e₀ = e ∧ s = s') ∨ (p ∧ f () s = .raised e s') := by
  rw [bind_apply]
  by_cases h : p <;> simp [require, h]

theorem constraint_bind_eq_raised {p : Prop} [Decidable p] {e₀ e : ε}
    {f : Unit → Session σ ε β} {s s' : σ} :
    (constraint p e₀ >>= f) s = .raised e s' ↔ p ∧ f () s = .raised e s' := by
  rw [bind_apply]
  by_cases h : p <;> simp [constraint, h]

/-! ## What a committed call leaves -/

/-- A commit either writes what the call returned or leaves everything as it was. -/
theorem commit_cases (x : Session σ ε α) (s : σ) :
    (∃ a s', x s = .ok a s' ∧ commit x s = s') ∨ commit x s = s := by
  unfold commit
  cases h : x s with
  | ok a s' => exact .inl ⟨a, s', rfl, rfl⟩
  | raised e s' => exact .inr rfl
  | aborted e => exact .inr rfl

theorem commit_of_ok {x : Session σ ε α} {s s' : σ} {a : α} (h : x s = .ok a s') :
    commit x s = s' := by
  unfold commit
  rw [h]

/-- What the call keeps when it returns, its transaction keeps. -/
theorem commit_keeps {P : σ → Prop} {x : Session σ ε α} {s : σ} (h : P s)
    (hx : ∀ a s', x s = .ok a s' → P s') : P (commit x s) := by
  rcases commit_cases x s with ⟨a, s', hok, heq⟩ | heq
  · rw [heq]
    exact hx a s' hok
  · rw [heq]
    exact h

/-- What holds before a transaction holds after it when the call is refused, or when it returns under
the condition that makes it hold. -/
theorem commit_iff {P : σ → Prop} {Q : Prop} {x : Session σ ε α} {s : σ} (h : P s)
    (hx : ∀ a s', x s = .ok a s' → (P s' ↔ Q)) :
    P (commit x s) ↔ ((∃ a s', x s = .ok a s') → Q) := by
  by_cases hreturns : ∃ a s', x s = .ok a s'
  · obtain ⟨a, s', hok⟩ := hreturns
    rw [commit_of_ok hok, hx a s' hok]
    exact ⟨fun hQ _ => hQ, fun hQ => hQ ⟨a, s', hok⟩⟩
  · obtain ⟨a, s', hok, -⟩ | heq := commit_cases x s
    · exact absurd ⟨a, s', hok⟩ hreturns
    · rw [heq]
      exact iff_of_true h fun hok => absurd hok hreturns

theorem savepoint_cases (x : Session σ ε α) (s : σ) :
    (∃ a s', x s = .ok a s' ∧ savepoint x s = .ok (some a) s') ∨
      savepoint x s = .ok none s := by
  unfold savepoint
  cases h : x s with
  | ok a s' => exact .inl ⟨a, s', rfl, rfl⟩
  | raised e s' => exact .inr rfl
  | aborted e => exact .inr rfl

/-- Behind a savepoint stand the changes of a body that returned, or nothing new. -/
theorem savepoint_eq_ok {x : Session σ ε α} {s s' : σ} {o : Option α}
    (h : savepoint x s = .ok o s') : s' = s ∨ ∃ a, o = some a ∧ x s = .ok a s' := by
  rcases savepoint_cases x s with ⟨a, s₁, hx, heq⟩ | heq
  · rw [heq] at h
    cases h
    exact .inr ⟨a, rfl, hx⟩
  · rw [heq] at h
    cases h
    exact .inl rfl

/-- What an executor leaves when its caller swallows the exception and commits: its changes
when it returned or raised, nothing when the database aborted it. -/
theorem commit_attempt_cases (x : Session σ ε α) (s : σ) :
    (∃ a s', x s = .ok a s' ∧ commit (attempt x) s = s') ∨
      (∃ e s', x s = .raised e s' ∧ commit (attempt x) s = s') ∨
      commit (attempt x) s = s := by
  unfold commit attempt
  cases h : x s with
  | ok a s' => exact .inl ⟨a, s', rfl, rfl⟩
  | raised e s' => exact .inr (.inl ⟨e, s', rfl, rfl⟩)
  | aborted e => exact .inr (.inr rfl)

end Session

end SaccoPlatform.Lib
