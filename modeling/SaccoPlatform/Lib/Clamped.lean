import Mathlib.Algebra.BigOperators.Group.List.Basic
import Mathlib.Algebra.Order.Ring.Defs
import Mathlib.Tactic.Linarith
import Mathlib.Tactic.Ring
import SaccoPlatform.Lib.Runs

/-!
# Counters that stop at zero

A counter that credits raise and debits lower, but never below zero. What a debit does not find is
lost, so a debit that comes before the credit that would have covered it leaves more than one that
comes after it. Which movements may come in any order is said by their sums alone.
-/

namespace SaccoPlatform.Lib.Clamped

inductive Movement (α : Type) where
  | credit (amount : α)
  | debit (amount : α)
deriving DecidableEq

open Movement

section

variable {α : Type} [CommRing α]

namespace Movement

def isCredit : Movement α → Bool
  | credit _ => true
  | debit _ => false

def credited : Movement α → α
  | credit amount => amount
  | debit _ => 0

def debited : Movement α → α
  | credit _ => 0
  | debit amount => amount

end Movement

def credits (ms : List (Movement α)) : α := (ms.map credited).sum

def debits (ms : List (Movement α)) : α := (ms.map debited).sum

theorem credits_cons (m : Movement α) (ms : List (Movement α)) :
    credits (m :: ms) = m.credited + credits ms := by simp [credits]

theorem debits_cons (m : Movement α) (ms : List (Movement α)) :
    debits (m :: ms) = m.debited + debits ms := by simp [debits]

theorem credits_append (ms ms' : List (Movement α)) :
    credits (ms ++ ms') = credits ms + credits ms' := by simp [credits]

theorem debits_append (ms ms' : List (Movement α)) :
    debits (ms ++ ms') = debits ms + debits ms' := by simp [debits]

theorem credits_perm {ms ms' : List (Movement α)} (h : ms.Perm ms') : credits ms = credits ms' :=
  (h.map credited).sum_eq

theorem debits_perm {ms ms' : List (Movement α)} (h : ms.Perm ms') : debits ms = debits ms' :=
  (h.map debited).sum_eq

theorem credits_eq_zero_of_debits {ms : List (Movement α)}
    (hall : ∀ m ∈ ms, m.isCredit = false) : credits ms = 0 := by
  apply List.sum_eq_zero
  intro a ha
  obtain ⟨m, hm, rfl⟩ := List.mem_map.mp ha
  cases m with
  | credit amount => cases hall _ hm
  | debit amount => rfl

theorem debits_eq_zero_of_credits {ms : List (Movement α)}
    (hall : ∀ m ∈ ms, m.isCredit = true) : debits ms = 0 := by
  apply List.sum_eq_zero
  intro a ha
  obtain ⟨m, hm, rfl⟩ := List.mem_map.mp ha
  cases m with
  | credit amount => rfl
  | debit amount => cases hall _ hm

end

section

variable {α : Type} [CommRing α] [LinearOrder α]

/-- The amount of the movement is not negative. -/
def Movement.Nonneg (m : Movement α) : Prop := 0 ≤ m.credited ∧ 0 ≤ m.debited

def Movement.apply (x : α) : Movement α → α
  | credit amount => x + amount
  | debit amount => max (x - amount) 0

/-- Credits alone add up. -/
theorem run_of_credits {ms : List (Movement α)} {x : α}
    (hall : ∀ m ∈ ms, m.isCredit = true) :
    run apply x ms = x + credits ms := by
  induction ms generalizing x with
  | nil => simp [credits]
  | cons m ms ih =>
    rw [run_cons, credits_cons, ih fun m' hm' => hall m' (List.mem_cons_of_mem _ hm')]
    cases m with
    | credit amount => exact add_assoc x amount _
    | debit amount => cases hall _ List.mem_cons_self

end

section

variable {α : Type} [CommRing α] [LinearOrder α] [IsStrictOrderedRing α] {ms : List (Movement α)}
  {x : α}

theorem credits_nonneg (h : ∀ m ∈ ms, m.Nonneg) : 0 ≤ credits ms := by
  induction ms with
  | nil => simp [credits]
  | cons m ms ih =>
    have hm := (h m List.mem_cons_self).1
    have hms := ih fun m' hm' => h m' (List.mem_cons_of_mem _ hm')
    rw [credits_cons]
    linarith

theorem debits_nonneg (h : ∀ m ∈ ms, m.Nonneg) : 0 ≤ debits ms := by
  induction ms with
  | nil => simp [debits]
  | cons m ms ih =>
    have hm := (h m List.mem_cons_self).2
    have hms := ih fun m' hm' => h m' (List.mem_cons_of_mem _ hm')
    rw [debits_cons]
    linarith

/-- The counter never holds more than what was put in. -/
theorem run_le (h : ∀ m ∈ ms, m.Nonneg) (hx : 0 ≤ x) : run apply x ms ≤ x + credits ms := by
  induction ms generalizing x with
  | nil => simp [credits]
  | cons m ms ih =>
    have hm := h m List.mem_cons_self
    have hms : ∀ m' ∈ ms, m'.Nonneg := fun m' hm' => h m' (List.mem_cons_of_mem _ hm')
    rw [run_cons, credits_cons]
    cases m with
    | credit amount =>
      have hpos : 0 ≤ amount := hm.1
      have hrest : run apply (x + amount) ms ≤ x + amount + credits ms := ih hms (add_nonneg hx hpos)
      show run apply (x + amount) ms ≤ x + (amount + credits ms)
      linarith
    | debit amount =>
      have hpos : 0 ≤ amount := hm.2
      have hle : max (x - amount) 0 ≤ x := max_le (by linarith) hx
      have hrest : run apply (max (x - amount) 0) ms ≤ max (x - amount) 0 + credits ms :=
        ih hms (le_max_right _ _)
      show run apply (max (x - amount) 0) ms ≤ x + (0 + credits ms)
      linarith

/-- While the debits are covered from the start, nothing is lost. -/
theorem run_of_covered (h : ∀ m ∈ ms, m.Nonneg) (hcovered : debits ms ≤ x) :
    run apply x ms = x + credits ms - debits ms := by
  induction ms generalizing x with
  | nil => simp [credits, debits]
  | cons m ms ih =>
    have hm := h m List.mem_cons_self
    have hms : ∀ m' ∈ ms, m'.Nonneg := fun m' hm' => h m' (List.mem_cons_of_mem _ hm')
    have hrest := debits_nonneg hms
    rw [debits_cons] at hcovered
    rw [run_cons, credits_cons, debits_cons]
    cases m with
    | credit amount =>
      have hpos : 0 ≤ amount := hm.1
      have hdebits : debits ms ≤ x + amount := by
        have : (0 : α) + debits ms ≤ x := hcovered
        linarith
      show run apply (x + amount) ms = x + (amount + credits ms) - (0 + debits ms)
      rw [ih hms hdebits]
      ring
    | debit amount =>
      have hdebits : amount + debits ms ≤ x := hcovered
      show run apply (max (x - amount) 0) ms = x + (0 + credits ms) - (amount + debits ms)
      rw [max_eq_left (by linarith), ih hms (by linarith)]
      ring

/-- Where no credit adds anything, the debits take what there is. -/
theorem run_of_credits_eq_zero (h : ∀ m ∈ ms, m.Nonneg) (hzero : credits ms = 0) (hx : 0 ≤ x) :
    run apply x ms = max (x - debits ms) 0 := by
  induction ms generalizing x with
  | nil => simp [debits, hx]
  | cons m ms ih =>
    have hm := h m List.mem_cons_self
    have hms : ∀ m' ∈ ms, m'.Nonneg := fun m' hm' => h m' (List.mem_cons_of_mem _ hm')
    have hcredits := credits_nonneg hms
    have hdebits := debits_nonneg hms
    have hcredited := hm.1
    rw [credits_cons] at hzero
    have hrest : credits ms = 0 := by linarith
    rw [run_cons, debits_cons]
    cases m with
    | credit amount =>
      have hamount : amount = 0 := by
        have : amount + credits ms = 0 := hzero
        linarith
      show run apply (x + amount) ms = max (x - (0 + debits ms)) 0
      rw [hamount, add_zero, zero_add]
      exact ih hms hrest hx
    | debit amount =>
      show run apply (max (x - amount) 0) ms = max (x - (amount + debits ms)) 0
      rw [ih hms hrest (le_max_right _ _)]
      rcases le_total amount x with hle | hle
      · rw [max_eq_left (sub_nonneg.mpr hle), sub_sub]
      · rw [max_eq_right (sub_nonpos.mpr hle), max_eq_right (by linarith), max_eq_right (by linarith)]

end

section

variable {α : Type}

/-- The credits, then the debits. -/
def creditsFirst (ms : List (Movement α)) : List (Movement α) :=
  ms.filter (·.isCredit) ++ ms.filter (!·.isCredit)

/-- The debits, then the credits. -/
def debitsFirst (ms : List (Movement α)) : List (Movement α) :=
  ms.filter (!·.isCredit) ++ ms.filter (·.isCredit)

theorem creditsFirst_perm (ms : List (Movement α)) : (creditsFirst ms).Perm ms :=
  List.filter_append_perm _ ms

end

section

variable {α : Type} [CommRing α] [LinearOrder α] [IsStrictOrderedRing α] {ms : List (Movement α)}
  {x : α}

/-- What each of the two orders leaves. -/
theorem run_extremes (h : ∀ m ∈ ms, m.Nonneg) (hx : 0 ≤ x) :
    run apply x (creditsFirst ms) = max (x + credits ms - debits ms) 0 ∧
      run apply x (debitsFirst ms) = max (x - debits ms) 0 + credits ms := by
  have hcredit : ∀ m ∈ ms.filter (·.isCredit), m.isCredit = true :=
    fun m hm => (List.mem_filter.mp hm).2
  have hdebit : ∀ m ∈ ms.filter (!·.isCredit), m.isCredit = false := by
    intro m hm
    simpa using (List.mem_filter.mp hm).2
  have hnonneg : ∀ m ∈ ms.filter (!·.isCredit), m.Nonneg := fun m hm => h m (List.mem_of_mem_filter hm)
  have hnone := credits_eq_zero_of_debits hdebit
  have hcredits : credits (ms.filter (·.isCredit)) = credits ms := by
    have hsum := credits_perm (creditsFirst_perm ms)
    rwa [creditsFirst, credits_append, hnone, add_zero] at hsum
  have hdebits : debits (ms.filter (!·.isCredit)) = debits ms := by
    have hsum := debits_perm (creditsFirst_perm ms)
    rwa [creditsFirst, debits_append, debits_eq_zero_of_credits hcredit, zero_add] at hsum
  constructor
  · have hraised : 0 ≤ x + credits (ms.filter (·.isCredit)) := by
      rw [hcredits]
      exact add_nonneg hx (credits_nonneg h)
    rw [creditsFirst, run_append, run_of_credits hcredit, run_of_credits_eq_zero hnonneg hnone hraised,
      hcredits, hdebits]
  · rw [debitsFirst, run_append, run_of_credits_eq_zero hnonneg hnone hx, run_of_credits hcredit, hcredits,
      hdebits]

/-- The two orders leave the same just when the debits are covered from the start, or there is
nothing that could come too late. -/
theorem run_extremes_eq_iff (h : ∀ m ∈ ms, m.Nonneg) (hx : 0 ≤ x) :
    run apply x (creditsFirst ms) = run apply x (debitsFirst ms) ↔ debits ms ≤ x ∨ credits ms = 0 := by
  obtain ⟨hcredits, hdebits⟩ := run_extremes h hx
  have hpos := credits_nonneg h
  rw [hcredits, hdebits]
  constructor
  · intro hsame
    rcases le_or_gt (debits ms) x with hle | hlt
    · exact .inl hle
    · right
      rw [max_eq_right (by linarith : x - debits ms ≤ 0), zero_add] at hsame
      rcases hpos.lt_or_eq with hcredit | hzero
      · have hless : max (x + credits ms - debits ms) 0 < credits ms := max_lt (by linarith) hcredit
        exact absurd hsame hless.ne
      · exact hzero.symm
  · rintro (hcovered | hzero)
    · rw [max_eq_left (by linarith), max_eq_left (by linarith)]
      ring
    · rw [hzero, add_zero, add_zero]

/-- And then every order leaves that. -/
theorem run_of_perm (h : ∀ m ∈ ms, m.Nonneg) (hx : 0 ≤ x) (hcond : debits ms ≤ x ∨ credits ms = 0)
    {ms' : List (Movement α)} (hperm : ms'.Perm ms) :
    run apply x ms' = max (x + credits ms - debits ms) 0 := by
  have hnonneg : ∀ m ∈ ms', m.Nonneg := fun m hm => h m (hperm.subset hm)
  rcases hcond with hcovered | hzero
  · rw [run_of_covered hnonneg (by rwa [debits_perm hperm]), credits_perm hperm, debits_perm hperm,
      max_eq_left]
    have := credits_nonneg h
    linarith
  · rw [run_of_credits_eq_zero hnonneg (by rw [credits_perm hperm, hzero]) hx, debits_perm hperm,
      hzero, add_zero]

end

end SaccoPlatform.Lib.Clamped
