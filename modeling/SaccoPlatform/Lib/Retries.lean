import Mathlib.Data.List.Basic
import Mathlib.Data.List.Range
import Mathlib.Data.Set.Defs
import Mathlib.Tactic.Common

/-!
# Attempts in rounds

Something is attempted on several channels until it succeeds. A round attempts each channel at most
once, leaves alone those that have succeeded, and leaves out an enabled one for no other reason. As
long as a round takes place only while every open channel has attempts left, no channel exceeds its
limit, and a channel that was enabled in every round has had as many attempts as any other.
-/

namespace SaccoPlatform.Lib

/-- The attempts on a channel, in order: the number that each was given, and whether it succeeded. -/
abbrev Attempts := List (ℕ × Bool)

namespace Attempts

def Succeeded (l : Attempts) : Prop := ∃ x ∈ l, x.2 = true

/-- The attempts are numbered from one, only the last of them may have succeeded, and there are no
more than `limit`. -/
structure Disciplined (limit : ℕ) (l : Attempts) : Prop where
  numbered : l.map Prod.fst = List.range' 1 l.length
  failed : ∀ x ∈ l.dropLast, x.2 = false
  length_le : l.length ≤ limit

variable {limit : ℕ} {l : Attempts}

theorem disciplined_nil : Disciplined limit [] :=
  ⟨rfl, by simp, Nat.zero_le limit⟩

/-- Another attempt on a channel that has not succeeded and has attempts left. -/
theorem Disciplined.attempt (h : Disciplined limit l) (hopen : ¬ Succeeded l) (hlt : l.length < limit)
    (b : Bool) : Disciplined limit (l ++ [(l.length + 1, b)]) := by
  refine ⟨?_, ?_, ?_⟩
  · rw [List.map_append, h.numbered, List.length_append, List.length_singleton,
      List.range'_concat]
    simp [Nat.add_comm]
  · rw [List.dropLast_concat]
    intro x hx
    by_contra hne
    exact hopen ⟨x, hx, by simpa using hne⟩
  · rw [List.length_append, List.length_singleton]
    omega

/-- At most one attempt has succeeded. -/
theorem Disciplined.count_le_one (h : Disciplined limit l) : (l.filter (·.2)).length ≤ 1 := by
  rcases List.eq_nil_or_concat l with rfl | ⟨front, last, rfl⟩
  · exact Nat.zero_le 1
  · have hfront : front.filter (·.2) = [] := by
      rw [List.filter_eq_nil_iff]
      intro x hx
      have hfailed := h.failed x (by rw [List.concat_eq_append, List.dropLast_concat]; exact hx)
      simp [hfailed]
    have hlast : ([last].filter (·.2)).length ≤ 1 := List.length_filter_le _ [last]
    rw [List.concat_eq_append, List.filter_append, hfront, List.nil_append]
    exact hlast

theorem foldr_max_range' (n b : ℕ) : (List.range' 1 n).foldr max b = max n b := by
  induction n generalizing b with
  | zero => exact (Nat.zero_max b).symm
  | succ n ih =>
    rw [List.range'_concat, List.foldr_append, ih, List.foldr_cons, List.foldr_nil]
    omega

/-- The highest number is the number of attempts. -/
theorem Disciplined.foldr_max (h : Disciplined limit l) : (l.map Prod.fst).foldr max 0 = l.length := by
  rw [h.numbered, foldr_max_range', Nat.max_zero]

/-! ### Rounds -/

variable {C : Type}

/-- Each channel is attempted once or left alone, an enabled one only if it has succeeded. -/
def Round (enabled : Set C) (tries tries' : C → Attempts) : Prop :=
  ∀ c, (tries' c = tries c ∧ (c ∈ enabled → Succeeded (tries c))) ∨
    (¬ Succeeded (tries c) ∧ ∃ b, tries' c = tries c ++ [((tries c).length + 1, b)])

/-- The channel has succeeded, or has had as many attempts as any other. -/
def Leads (tries : C → Attempts) (c : C) : Prop :=
  Succeeded (tries c) ∨ ∀ c', (tries c').length ≤ (tries c).length

variable {enabled : Set C} {tries tries' : C → Attempts}

theorem Round.disciplined (hround : Round enabled tries tries') (h : ∀ c, Disciplined limit (tries c))
    (hopen : ∀ c, ¬ Succeeded (tries c) → (tries c).length < limit) (c : C) :
    Disciplined limit (tries' c) := by
  rcases hround c with ⟨hsame, -⟩ | ⟨hunsent, b, hmore⟩
  · rw [hsame]
    exact h c
  · rw [hmore]
    exact (h c).attempt hunsent (hopen c hunsent) b

theorem Round.length_le (hround : Round enabled tries tries') (c : C) :
    (tries' c).length ≤ (tries c).length + 1 := by
  rcases hround c with ⟨hsame, -⟩ | ⟨-, b, hmore⟩
  · rw [hsame]
    omega
  · rw [hmore, List.length_append, List.length_singleton]

theorem Round.succeeded (hround : Round enabled tries tries') {c : C} (h : Succeeded (tries c)) :
    Succeeded (tries' c) := by
  rcases hround c with ⟨hsame, -⟩ | ⟨hunsent, -⟩
  · rw [hsame]
    exact h
  · exact absurd h hunsent

/-- An enabled channel stays ahead. -/
theorem Round.leads (hround : Round enabled tries tries') {c : C} (hc : c ∈ enabled)
    (h : Leads tries c) : Leads tries' c := by
  rcases h with hsucceeded | hlongest
  · exact .inl (hround.succeeded hsucceeded)
  · rcases hround c with ⟨-, hdone⟩ | ⟨-, b, hmore⟩
    · exact .inl (hround.succeeded (hdone hc))
    · right
      intro c'
      have hbefore := hlongest c'
      have hafter := hround.length_le c'
      rw [hmore, List.length_append, List.length_singleton]
      omega

end Attempts

end SaccoPlatform.Lib
