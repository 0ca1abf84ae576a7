import Mathlib.Logic.Function.Basic
import Mathlib.Data.Int.Order.Basic
import Mathlib.Tactic.Common

/-!
# Values that expire

A store whose entries each carry the last moment at which they can still be read, as the keys of a
cache or of Redis do. An entry that has expired stays where it is until it is written over, and
nobody can read it.
-/

namespace SaccoPlatform.Lib

/-- An entry after a write is the new one, or another one that was there before. -/
theorem update_eq_some {κ β : Type} [DecidableEq κ] {f : κ → Option β} {k k' : κ} {v : Option β}
    {w : β} (h : Function.update f k v k' = some w) :
    (k' = k ∧ v = some w) ∨ (k' ≠ k ∧ f k' = some w) := by
  by_cases hk : k' = k
  · rw [hk, Function.update_self] at h
    exact .inl ⟨hk, h⟩
  · rw [Function.update_of_ne hk] at h
    exact .inr ⟨hk, h⟩

/-- Values under keys, each with the last moment at which it can be read. -/
def Expiring (κ β : Type) : Type := κ → Option (β × ℤ)

namespace Expiring

variable {κ β : Type}

def empty : Expiring κ β := fun _ => none

def get? (s : Expiring κ β) (now : ℤ) (k : κ) : Option β :=
  (s k).bind fun e => if now ≤ e.2 then some e.1 else none

section Write

variable [DecidableEq κ]

def set (s : Expiring κ β) (k : κ) (v : β) (expiresAt : ℤ) : Expiring κ β :=
  Function.update s k (some (v, expiresAt))

def erase (s : Expiring κ β) (k : κ) : Expiring κ β := Function.update s k none

/-- The entries under several keys are gone. -/
def eraseAll (s : Expiring κ β) (ks : List κ) : Expiring κ β := fun k => if k ∈ ks then none else s k

@[simp] theorem set_self (s : Expiring κ β) (k : κ) (v : β) (t : ℤ) :
    s.set k v t k = some (v, t) := Function.update_self ..

@[simp] theorem set_of_ne (s : Expiring κ β) {k k' : κ} (h : k' ≠ k) (v : β) (t : ℤ) :
    s.set k v t k' = s k' := Function.update_of_ne h ..

@[simp] theorem erase_self (s : Expiring κ β) (k : κ) : s.erase k k = none :=
  Function.update_self ..

@[simp] theorem erase_of_ne (s : Expiring κ β) {k k' : κ} (h : k' ≠ k) :
    s.erase k k' = s k' := Function.update_of_ne h ..

theorem set_eq_some {s : Expiring κ β} {k k' : κ} {v w : β} {t u : ℤ}
    (h : s.set k v t k' = some (w, u)) : (k' = k ∧ w = v ∧ u = t) ∨ s k' = some (w, u) := by
  rcases update_eq_some h with ⟨hk, hv⟩ | ⟨-, hold⟩
  · cases hv
    exact .inl ⟨hk, rfl, rfl⟩
  · exact .inr hold

theorem erase_eq_some {s : Expiring κ β} {k k' : κ} {e : β × ℤ} (h : s.erase k k' = some e) :
    s k' = some e := by
  rcases update_eq_some h with ⟨-, hv⟩ | ⟨-, hold⟩
  · cases hv
  · exact hold

theorem eraseAll_eq_some {s : Expiring κ β} {ks : List κ} {k : κ} {e : β × ℤ}
    (h : s.eraseAll ks k = some e) : s k = some e := by
  unfold eraseAll at h
  split at h
  · cases h
  · exact h

end Write

theorem get?_eq_some {s : Expiring κ β} {now : ℤ} {k : κ} {v : β} :
    s.get? now k = some v ↔ ∃ t, s k = some (v, t) ∧ now ≤ t := by
  unfold get?
  cases hk : s k with
  | none => simp
  | some e =>
    obtain ⟨w, t⟩ := e
    by_cases h : now ≤ t
    · simp [h]
    · simp only [Option.bind_some, h, if_false]
      constructor
      · intro hnone
        cases hnone
      · rintro ⟨t', heq, ht'⟩
        cases heq
        exact absurd ht' h

end Expiring

end SaccoPlatform.Lib
