import Mathlib.Algebra.BigOperators.Group.List.Basic
import Mathlib.Data.List.Forall2
import Mathlib.Data.List.Sort

/-!
# Rows of a table

A table is the list of its rows. Facts about related tables, about writing a row back under
its key, and about deleting rows.
-/

namespace SaccoPlatform.Lib

variable {α β : Type}

/-- Each row of the second table stems from a row of the first. -/
theorem forall₂_exists_left {R : α → β → Prop} {as : List α} {bs : List β}
    (h : List.Forall₂ R as bs) {b : β} (hb : b ∈ bs) : ∃ a ∈ as, R a b := by
  induction h with
  | nil => cases hb
  | @cons a b' as bs hab _ ih =>
    rcases List.mem_cons.mp hb with rfl | hb
    · exact ⟨a, List.mem_cons_self, hab⟩
    · obtain ⟨a', ha', h'⟩ := ih hb
      exact ⟨a', List.mem_cons_of_mem _ ha', h'⟩

/-- What is related stays so where both sides leave out the same. -/
theorem forall₂_filter {R : α → β → Prop} {as : List α} {bs : List β} {p : α → Bool} {q : β → Bool}
    (h : List.Forall₂ R as bs) (hpq : ∀ a b, R a b → p a = q b) :
    List.Forall₂ R (as.filter p) (bs.filter q) := by
  induction h with
  | nil => exact .nil
  | @cons a b as bs hab _ ih =>
    have hsame := hpq a b hab
    cases hp : p a with
    | true =>
      rw [List.filter_cons_of_pos hp, List.filter_cons_of_pos (hsame ▸ hp)]
      exact .cons hab ih
    | false =>
      rw [hp] at hsame
      rw [List.filter_cons_of_neg (by simp [hp]), List.filter_cons_of_neg (by simp [← hsame])]
      exact ih

/-- Rows that are converted one by one, when every one of them can be. -/
theorem mapM_eq_some {f : α → Option β} {as : List α} {bs : List β} :
    as.mapM f = some bs ↔ List.Forall₂ (fun a b => f a = some b) as bs := by
  induction as generalizing bs with
  | nil =>
    rw [List.mapM_nil, List.forall₂_nil_left_iff]
    exact ⟨fun h => (Option.some.inj h).symm, fun h => congrArg some h.symm⟩
  | cons a as ih =>
    rw [List.mapM_cons, List.forall₂_cons_left_iff]
    constructor
    · intro h
      obtain ⟨b, hb, h⟩ := Option.bind_eq_some_iff.mp h
      obtain ⟨bs', hbs', h⟩ := Option.bind_eq_some_iff.mp h
      exact ⟨b, bs', hb, ih.mp hbs', (Option.some.inj h).symm⟩
    · rintro ⟨b, bs', hb, hbs', rfl⟩
      rw [hb, ih.mpr hbs']
      rfl

theorem mapM_eq_ok {ε : Type} {f : α → Except ε β} {as : List α} {bs : List β} :
    as.mapM f = .ok bs ↔ List.Forall₂ (fun a b => f a = .ok b) as bs := by
  induction as generalizing bs with
  | nil =>
    rw [List.mapM_nil, List.forall₂_nil_left_iff]
    exact ⟨fun h => (Except.ok.inj h).symm, fun h => congrArg Except.ok h.symm⟩
  | cons a as ih =>
    rw [List.mapM_cons, List.forall₂_cons_left_iff]
    cases ha : f a with
    | error e =>
      constructor
      · exact nofun
      · rintro ⟨b, bs', hb, -⟩
        cases hb
    | ok b =>
      show (as.mapM f >>= fun bs' => pure (b :: bs')) = _ ↔ _
      cases has : as.mapM f with
      | error e =>
        constructor
        · exact nofun
        · rintro ⟨b', bs', -, hbs', -⟩
          rw [has] at ih
          cases ih.mpr hbs'
      | ok bs₀ =>
        constructor
        · intro h
          cases h
          exact ⟨b, bs₀, rfl, ih.mp has, rfl⟩
        · rintro ⟨b', bs', hb, hbs', rfl⟩
          cases hb
          cases has.symm.trans (ih.mpr hbs')
          rfl

theorem exists_mapM_eq_ok {ε : Type} {f : α → Except ε β} {as : List α}
    (h : ∀ a ∈ as, ∃ b, f a = .ok b) : ∃ bs, as.mapM f = .ok bs := by
  induction as with
  | nil => exact ⟨[], mapM_eq_ok.mpr .nil⟩
  | cons a as ih =>
    obtain ⟨b, hb⟩ := h a List.mem_cons_self
    obtain ⟨bs, hbs⟩ := ih fun x hx => h x (List.mem_cons_of_mem _ hx)
    exact ⟨b :: bs, mapM_eq_ok.mpr (.cons hb (mapM_eq_ok.mp hbs))⟩

theorem mapM_eq_nil {f : α → Option β} {as : List α} {bs : List β} (h : as.mapM f = some bs) :
    bs = [] ↔ as = [] := by
  have hlength := (mapM_eq_some.mp h).length_eq
  rw [← List.length_eq_zero_iff, ← hlength, List.length_eq_zero_iff]

/-- Where keys are distinct, writing a row back updates the row of its key in place. -/
theorem map_put_eq {κ : Type} [DecidableEq κ] {key : α → κ} {rows : List α}
    (hnodup : (rows.map key).Nodup) {r₀ : α} (hmem : r₀ ∈ rows) (f : α → α) :
    (rows.map fun r => if key r = key r₀ then f r₀ else r)
      = rows.map fun r => if key r = key r₀ then f r else r := by
  apply List.map_congr_left
  intro r hr
  by_cases h : key r = key r₀
  · rw [if_pos h, if_pos h, List.inj_on_of_nodup_map hnodup hr hmem h]
  · rw [if_neg h, if_neg h]

/-- A row of a list is the first one or one of the others, and what comes before it grows by the first
one then. -/
theorem exists_split_cons {P : List α → Prop} {a b : α} {as : List α} :
    (∃ front rest, a :: as = front ++ b :: rest ∧ P front) ↔
      (a = b ∧ P []) ∨ ∃ front rest, as = front ++ b :: rest ∧ P (a :: front) := by
  constructor
  · rintro ⟨front, rest, heq, hP⟩
    cases front with
    | nil =>
      cases heq
      exact .inl ⟨rfl, hP⟩
    | cons c front =>
      cases heq
      exact .inr ⟨front, rest, rfl, hP⟩
  · rintro (⟨rfl, hP⟩ | ⟨front, rest, rfl, hP⟩)
    · exact ⟨[], as, rfl, hP⟩
    · exact ⟨a :: front, rest, rfl, hP⟩

theorem flatMap_eq_map {f : α → List β} {g : α → β} {as : List α} (h : ∀ a ∈ as, f a = [g a]) :
    as.flatMap f = as.map g := by
  induction as with
  | nil => rfl
  | cons a as ih =>
    rw [List.flatMap_cons, h a List.mem_cons_self, List.map_cons,
      ih fun a' ha' => h a' (List.mem_cons_of_mem _ ha')]
    rfl

/-- A row that is written back is found under its key. -/
theorem find?_put {κ : Type} [DecidableEq κ] (key : α → κ) {rows : List α} {r row : α} {k : κ}
    (hrow : key row = k) (hr : (rows.find? fun r => key r = k) = some r) :
    ((rows.map fun r => if key r = key row then row else r).find? fun r => key r = k)
      = some row := by
  have hsame : ((fun r => decide (key r = k)) ∘ fun r => if key r = key row then row else r)
      = fun r => decide (key r = k) := by
    funext r
    by_cases h : key r = k <;> simp [hrow, h]
  have hkey : key r = k := by simpa using List.find?_some hr
  rw [List.find?_map, hsame, hr, Option.map_some, if_pos (hkey.trans hrow.symm)]

/-- Where keys are distinct, adding to the row of one key adds once to the sum. -/
theorem sum_map_add_one {κ M : Type} [DecidableEq κ] [AddCommMonoid M] (key : α → κ)
    {rows : List α} (hnodup : (rows.map key).Nodup) {r₀ : α} (hmem : r₀ ∈ rows) (f : α → M) (m : M) :
    (rows.map fun r => f r + if key r = key r₀ then m else 0).sum = (rows.map f).sum + m := by
  induction rows with
  | nil => cases hmem
  | cons r rest ih =>
    rw [List.map_cons, List.nodup_cons] at hnodup
    simp only [List.map_cons, List.sum_cons]
    rcases List.mem_cons.mp hmem with rfl | hrest
    · -- no other row has this key
      have hother : (rest.map fun r => f r + if key r = key r₀ then m else 0) = rest.map f := by
        apply List.map_congr_left
        intro r hr
        have hne : key r ≠ key r₀ := fun heq => hnodup.1 (heq ▸ List.mem_map_of_mem hr)
        rw [if_neg hne, add_zero]
      rw [hother, if_pos rfl, add_assoc, add_comm m, ← add_assoc]
    · have hne : key r ≠ key r₀ := fun heq => hnodup.1 (heq ▸ List.mem_map_of_mem hrest)
      rw [ih hnodup.2 hrest, if_neg hne, add_zero, add_assoc]

section Sorting

variable {r : α → α → Prop} [DecidableRel r] [IsTrans α r]

theorem filter_orderedInsert (p : α → Bool) (a : α) {l : List α} (hl : l.Pairwise r) :
    (l.orderedInsert r a).filter p
      = if p a then (l.filter p).orderedInsert r a else l.filter p := by
  induction l with
  | nil => cases hp : p a <;> simp [hp]
  | cons b l ih =>
    have hb : ∀ c ∈ l, r b c := (List.pairwise_cons.mp hl).1
    have ih := ih (List.pairwise_cons.mp hl).2
    by_cases hab : r a b
    · rw [List.orderedInsert_cons, if_pos hab, List.filter_cons]
      split
      · -- everything that is kept comes after `a`
        cases hkept : (b :: l).filter p with
        | nil => rfl
        | cons c rest =>
          have hc : c ∈ b :: l := (List.mem_filter.mp (hkept ▸ List.mem_cons_self)).1
          have hac : r a c := by
            rcases List.mem_cons.mp hc with rfl | hc
            · exact hab
            · exact trans_of r hab (hb c hc)
          rw [List.orderedInsert_cons, if_pos hac]
      · rfl
    · rw [List.orderedInsert_cons, if_neg hab, List.filter_cons, ih]
      by_cases hpb : p b = true
      · rw [if_pos hpb, List.filter_cons, if_pos hpb]
        split
        · rw [List.orderedInsert_cons, if_neg hab]
        · rfl
      · rw [if_neg hpb, List.filter_cons, if_neg hpb]

/-- Deleting rows before a sorted query or from its result is the same. -/
theorem filter_insertionSort [Std.Total r] (p : α → Bool) (l : List α) :
    (l.insertionSort r).filter p = (l.filter p).insertionSort r := by
  induction l with
  | nil => rfl
  | cons a l ih =>
    rw [List.insertionSort_cons, filter_orderedInsert p a (List.pairwise_insertionSort r l), ih,
      List.filter_cons]
    split
    · rfl
    · rfl

end Sorting

end SaccoPlatform.Lib
