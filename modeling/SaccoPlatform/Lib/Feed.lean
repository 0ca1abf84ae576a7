import Mathlib.Data.Set.Insert
import Mathlib.Logic.Function.Basic
import Mathlib.Logic.Relation
import Mathlib.Order.Nat
import Mathlib.Tactic.Common

/-!
# Copies kept up to a watermark

A copy of a table is brought up to date by passes. A pass reads the rows that are stamped with the
watermark or later, copies them one by one, and moves the watermark to a stamp it has read. Copies of
rows that have vanished are dropped by sweeps, which list the copies first and look for their rows
afterwards. The copy is sound when every row stamped before the watermark has been copied. Passes
that come one after the other keep that, and a writer keeps it if it commits no stamp from before
what a pass has read. Once no writer commits, one pass and then one sweep make the copy exact.
-/

namespace SaccoPlatform.Lib

/-- A row, with the stamp of the transaction that wrote it. -/
structure Stamped (V : Type) where
  time : ℕ
  value : V

/-- How far a pass is: it knows the watermark, it has read the rows, or it is through. -/
inductive Pass (K D : Type) where
  | reading (since : ℕ)
  | writing (pending : Set (K × D)) (next : ℕ)
  | done

/-- How far a sweep is: it has listed the copies, it has found the ones without a row, or it is
through. -/
inductive Sweep (K : Type) where
  | scanned (keys : Set K)
  | dropping (keys : Set K)
  | done

/-- A table, the copy of it, and the passes and sweeps. -/
structure Feed (K V D : Type) where
  rows : K → Option (Stamped V)
  docs : K → Option D
  watermark : ℕ
  passes : ℕ → Option (Pass K D)
  sweeps : ℕ → Option (Sweep K)

namespace Feed

variable {K V D : Type} (doc : K → V → D)

/-! ### Rows and copies -/

/-- The rows with such a stamp have been copied, or wait among the copies to be made, which are what
these rows say. -/
structure Covers (rows : K → Option (Stamped V)) (docs : K → Option D) (P : ℕ → Prop)
    (pending : Set (K × D)) : Prop where
  current : ∀ k r, rows k = some r → P r.time → ∀ d, (k, d) ∈ pending → d = doc k r.value
  covered : ∀ k r, rows k = some r → P r.time →
    (k, doc k r.value) ∈ pending ∨ docs k = some (doc k r.value)

section

variable {doc} {rows : K → Option (Stamped V)} {docs : K → Option D} {P : ℕ → Prop}
  {pending : Set (K × D)} {k : K} {d : D}

/-- The copy of a row is made. -/
theorem Covers.put [DecidableEq K] (h : Covers doc rows docs P pending)
    (hd : ∀ r, rows k = some r → P r.time → d = doc k r.value) :
    Covers doc rows (Function.update docs k (some d)) P pending := by
  refine ⟨h.current, ?_⟩
  intro k' r hr ht
  by_cases hk : k' = k
  · subst hk
    right
    rw [Function.update_self, hd r hr ht]
  · rw [Function.update_of_ne hk]
    exact h.covered k' r hr ht

/-- What has been copied does not wait any longer. -/
theorem Covers.shrink (h : Covers doc rows docs P pending) {pending' : Set (K × D)}
    (hsub : pending' ⊆ pending) (hrest : ∀ x ∈ pending, x ∈ pending' ∨ docs x.1 = some x.2) :
    Covers doc rows docs P pending' := by
  refine ⟨fun k r hr ht d hd => h.current k r hr ht d (hsub hd), ?_⟩
  intro k r hr ht
  rcases h.covered k r hr ht with hin | hdoc
  · exact hrest _ hin
  · exact .inr hdoc

/-- A copy without a row is dropped. -/
theorem Covers.drop [DecidableEq K] (h : Covers doc rows docs P pending) (hk : rows k = none) :
    Covers doc rows (Function.update docs k none) P pending := by
  refine ⟨h.current, ?_⟩
  intro k' r hr ht
  have hne : k' ≠ k := by
    rintro rfl
    rw [hk] at hr
    cases hr
  rw [Function.update_of_ne hne]
  exact h.covered k' r hr ht

/-- The rows from a stamp on are read, where all rows before it have been copied. -/
theorem Covers.read {since : ℕ} (h : Covers doc rows docs (· < since) ∅)
    (hpending : ∀ k d, (k, d) ∈ pending ↔ ∃ r, rows k = some r ∧ since ≤ r.time ∧ d = doc k r.value) :
    Covers doc rows docs P pending := by
  constructor
  · intro k r hr _ d hd
    obtain ⟨r', hr', -, rfl⟩ := (hpending k d).mp hd
    obtain rfl := Option.some.inj (hr.symm.trans hr')
    rfl
  · intro k r hr _
    by_cases hlt : r.time < since
    · rcases h.covered k r hr hlt with hin | hdoc
      · exact absurd hin (Set.notMem_empty _)
      · exact .inr hdoc
    · exact .inl ((hpending k _).mpr ⟨r, hr, not_lt.mp hlt, rfl⟩)

end

/-! ### Steps -/

/-- The pass has begun and is not through. -/
def Running (f : Feed K V D) (i : ℕ) : Prop := ∃ p, f.passes i = some p ∧ p ≠ .done

/-- Nothing has been read past the stamp. -/
def Admits (f : Feed K V D) (time : ℕ) : Prop :=
  f.watermark ≤ time ∧ ∀ i pending next, f.passes i = some (.writing pending next) → next ≤ time

/-- A sweep is about to drop the copy. -/
def Doomed (f : Feed K V D) (k : K) : Prop := ∃ j keys, f.sweeps j = some (.dropping keys) ∧ k ∈ keys

/-- A commit: the stamps of the rows it writes are admitted, and no sweep is about to drop them. -/
def Write (f f' : Feed K V D) : Prop :=
  ∃ rows : K → Option (Stamped V), f' = { f with rows } ∧
    ∀ k r, rows k = some r → f.rows k = some r ∨ f.Admits r.time ∧ ¬ f.Doomed k

/-- What passes and sweeps do. A pass begins only when there is no other. -/
inductive Step [DecidableEq K] (f : Feed K V D) : Feed K V D → Prop where
  | enter (i : ℕ) (hnew : f.passes i = none) (hidle : ∀ j, ¬ f.Running j) :
      Step f { f with passes := Function.update f.passes i (some (.reading f.watermark)) }
  | leave (i : ℕ) (hi : f.Running i) :
      Step f { f with passes := Function.update f.passes i none }
  | read (i since next : ℕ) (pending : Set (K × D)) (hi : f.passes i = some (.reading since))
      (hnext : since ≤ next)
      (hpending : ∀ k d, (k, d) ∈ pending ↔
        ∃ r, f.rows k = some r ∧ since ≤ r.time ∧ d = doc k r.value) :
      Step f { f with passes := Function.update f.passes i (some (.writing pending next)) }
  | copy (i next : ℕ) (pending pending' : Set (K × D)) (k : K) (d : D)
      (hi : f.passes i = some (.writing pending next)) (hmem : (k, d) ∈ pending)
      (hsub : pending' ⊆ pending) (hrest : ∀ x ∈ pending, x ∈ pending' ∨ x = (k, d)) :
      Step f { f with docs := Function.update f.docs k (some d),
                      passes := Function.update f.passes i (some (.writing pending' next)) }
  | finish (i next : ℕ) (hi : f.passes i = some (.writing ∅ next)) :
      Step f { f with watermark := next, passes := Function.update f.passes i (some .done) }
  | scan (j : ℕ) (keys : Set K) (hnew : f.sweeps j = none) (hkeys : ∀ k, f.docs k ≠ none → k ∈ keys) :
      Step f { f with sweeps := Function.update f.sweeps j (some (.scanned keys)) }
  | choose (j : ℕ) (keys : Set K) (hj : f.sweeps j = some (.scanned keys)) :
      Step f { f with sweeps :=
        Function.update f.sweeps j (some (.dropping {k ∈ keys | f.rows k = none})) }
  | drop (j : ℕ) (keys keys' : Set K) (k : K) (hj : f.sweeps j = some (.dropping keys)) (hk : k ∈ keys)
      (hsub : keys' ⊆ keys) (hrest : ∀ x ∈ keys, x ∈ keys' ∨ x = k) :
      Step f { f with docs := Function.update f.docs k none,
                      sweeps := Function.update f.sweeps j (some (.dropping keys')) }
  | swept (j : ℕ) (hj : f.sweeps j = some (.dropping ∅)) :
      Step f { f with sweeps := Function.update f.sweeps j (some .done) }
  | giveUp (j : ℕ) :
      Step f { f with sweeps := Function.update f.sweeps j none }

/-! ### Soundness -/

/-- Every row stamped before the watermark has been copied, and the one pass under way will have
copied every row stamped before the next one. -/
structure Sound (f : Feed K V D) : Prop where
  copied : Covers doc f.rows f.docs (· < f.watermark) ∅
  alone : ∀ i j, f.Running i → f.Running j → i = j
  reading : ∀ i since, f.passes i = some (.reading since) → since = f.watermark
  writing : ∀ i pending next, f.passes i = some (.writing pending next) →
    f.watermark ≤ next ∧ Covers doc f.rows f.docs (· < next) pending
  dropping : ∀ k, f.Doomed k → f.rows k = none

variable {doc} {f f' : Feed K V D}

theorem running_of_reading {i since : ℕ} (hi : f.passes i = some (.reading since)) : f.Running i :=
  ⟨_, hi, nofun⟩

theorem running_of_writing {i next : ℕ} {pending : Set (K × D)}
    (hi : f.passes i = some (.writing pending next)) : f.Running i := ⟨_, hi, nofun⟩

/-- A writer that commits no stamp from before what a pass has read. -/
theorem Sound.write (h : Sound doc f) (hwrite : f.Write f') : Sound doc f' := by
  obtain ⟨rows, rfl, hrows⟩ := hwrite
  have hcovers : ∀ bound pending, (∀ time, f.Admits time → bound ≤ time) →
      Covers doc f.rows f.docs (· < bound) pending → Covers doc rows f.docs (· < bound) pending := by
    intro bound pending hbound hcov
    constructor
    · intro k r hr hlt
      rcases hrows k r hr with hold | ⟨hadmits, -⟩
      · exact hcov.current k r hold hlt
      · exact absurd (hbound r.time hadmits) (not_le.mpr hlt)
    · intro k r hr hlt
      rcases hrows k r hr with hold | ⟨hadmits, -⟩
      · exact hcov.covered k r hold hlt
      · exact absurd (hbound r.time hadmits) (not_le.mpr hlt)
  refine ⟨?_, h.alone, h.reading, ?_, ?_⟩
  · exact hcovers f.watermark ∅ (fun time hadmits => hadmits.1) h.copied
  · intro i pending next hi
    have ⟨hle, hcov⟩ := h.writing i pending next hi
    exact ⟨hle, hcovers next pending (fun time hadmits => hadmits.2 i pending next hi) hcov⟩
  · intro k hk
    show rows k = none
    cases hr : rows k with
    | none => rfl
    | some r =>
      rcases hrows k r hr with hold | ⟨-, hdoomed⟩
      · rw [h.dropping k hk] at hold
        cases hold
      · exact absurd hk hdoomed

/-- One pass changes, and there is no other. -/
theorem Sound.setPass (h : Sound doc f) {i : ℕ} {pass : Option (Pass K D)}
    (halone : ∀ j, f.Running j → j = i)
    (hreading : ∀ since, pass = some (.reading since) → since = f.watermark)
    (hwriting : ∀ pending next, pass = some (.writing pending next) →
      f.watermark ≤ next ∧ Covers doc f.rows f.docs (· < next) pending) :
    Sound doc { f with passes := Function.update f.passes i pass } := by
  have hcases : ∀ j p, Function.update f.passes i pass j = some p → p ≠ .done → j = i ∧ pass = some p := by
    intro j p hp hne
    by_cases hj : j = i
    · subst hj
      rw [Function.update_self] at hp
      exact ⟨rfl, hp⟩
    · rw [Function.update_of_ne hj] at hp
      exact absurd (halone j ⟨p, hp, hne⟩) hj
  refine ⟨h.copied, ?_, ?_, ?_, h.dropping⟩
  · rintro j j' ⟨p, hp, hne⟩ ⟨p', hp', hne'⟩
    exact (hcases j p hp hne).1.trans (hcases j' p' hp' hne').1.symm
  · intro j since hj
    exact hreading since (hcases j _ hj nofun).2
  · intro j pending next hj
    exact hwriting pending next (hcases j _ hj nofun).2

/-- One sweep changes, and does not decide to drop the copy of a row. -/
theorem Sound.setSweep (h : Sound doc f) {j : ℕ} {sweep : Option (Sweep K)}
    (hdropping : ∀ keys, sweep = some (.dropping keys) → ∀ k ∈ keys, f.rows k = none) :
    Sound doc { f with sweeps := Function.update f.sweeps j sweep } := by
  refine ⟨h.copied, h.alone, h.reading, h.writing, ?_⟩
  intro k hdoomed
  have ⟨j', keys, (hj' : Function.update f.sweeps j sweep j' = _), hk⟩ := hdoomed
  by_cases hj : j' = j
  · subst hj
    rw [Function.update_self] at hj'
    exact hdropping keys hj' k hk
  · rw [Function.update_of_ne hj] at hj'
    exact h.dropping k ⟨j', keys, hj', hk⟩

/-- A pass that has copied everything moves the watermark. -/
theorem Sound.finish (h : Sound doc f) {i next : ℕ} (hi : f.passes i = some (.writing ∅ next)) :
    Sound doc { f with watermark := next, passes := Function.update f.passes i (some .done) } := by
  have hidle : ∀ j p, Function.update f.passes i (some .done) j = some p → p = .done := by
    intro j p hp
    by_cases hj : j = i
    · subst hj
      rw [Function.update_self] at hp
      exact (Option.some.inj hp).symm
    · rw [Function.update_of_ne hj] at hp
      by_contra hne
      exact hj (h.alone j i ⟨p, hp, hne⟩ (running_of_writing hi))
  refine ⟨(h.writing i ∅ next hi).2, ?_, ?_, ?_, h.dropping⟩
  · rintro j j' ⟨p, hp, hne⟩
    exact absurd (hidle j p hp) hne
  · intro j since hj
    cases hidle j _ hj
  · intro j pending next' hj
    cases hidle j _ hj

section

variable [DecidableEq K]

/-- A copy that a pass waited to make is made. -/
theorem Sound.put (h : Sound doc f) {i next : ℕ} {pending : Set (K × D)} {k : K} {d : D}
    (hi : f.passes i = some (.writing pending next)) (hmem : (k, d) ∈ pending) :
    Sound doc { f with docs := Function.update f.docs k (some d) } := by
  have ⟨hle, hcov⟩ := h.writing i pending next hi
  have hd : ∀ r, f.rows k = some r → r.time < next → d = doc k r.value := fun r hr hlt =>
    hcov.current k r hr hlt d hmem
  refine ⟨?_, h.alone, h.reading, ?_, h.dropping⟩
  · exact h.copied.put fun r hr hlt => hd r hr (lt_of_lt_of_le hlt hle)
  · intro j pending' next' hj
    obtain rfl := h.alone j i (running_of_writing hj) (running_of_writing hi)
    obtain ⟨rfl, rfl⟩ := Pass.writing.inj (Option.some.inj (hj.symm.trans hi))
    exact ⟨hle, hcov.put hd⟩

/-- A copy without a row is dropped. -/
theorem Sound.drop (h : Sound doc f) {k : K} (hk : f.rows k = none) :
    Sound doc { f with docs := Function.update f.docs k none } := by
  refine ⟨h.copied.drop hk, h.alone, h.reading, ?_, h.dropping⟩
  intro i pending next hi
  have ⟨hle, hcov⟩ := h.writing i pending next hi
  exact ⟨hle, hcov.drop hk⟩

theorem Sound.step (h : Sound doc f) (hstep : Step doc f f') : Sound doc f' := by
  cases hstep with
  | enter i hnew hidle =>
    apply h.setPass
    · intro j hj
      exact absurd hj (hidle j)
    · intro since hsince
      cases hsince
      rfl
    · intro pending next hpass
      cases hpass
  | leave i hi =>
    apply h.setPass fun j hj => h.alone j i hj hi
    · intro since hsince
      cases hsince
    · intro pending next hpass
      cases hpass
  | read i since next pending hi hnext hpending =>
    obtain rfl := h.reading i since hi
    apply h.setPass fun j hj => h.alone j i hj (running_of_reading hi)
    · intro since hsince
      cases hsince
    · intro pending' next' hpass
      obtain ⟨rfl, rfl⟩ := Pass.writing.inj (Option.some.inj hpass)
      exact ⟨hnext, h.copied.read hpending⟩
  | copy i next pending pending' k d hi hmem hsub hrest =>
    have hput := h.put hi hmem
    apply hput.setPass fun j hj => h.alone j i hj (running_of_writing hi)
    · intro since hsince
      cases hsince
    · intro pending₁ next₁ hpass
      obtain ⟨rfl, rfl⟩ := Pass.writing.inj (Option.some.inj hpass)
      have ⟨hle, hcov⟩ := hput.writing i pending next hi
      refine ⟨hle, hcov.shrink hsub fun x hx => ?_⟩
      rcases hrest x hx with hin | rfl
      · exact .inl hin
      · exact .inr (Function.update_self _ _ _)
  | finish i next hi => exact h.finish hi
  | scan j keys hnew hkeys => exact h.setSweep nofun
  | choose j keys hj =>
    apply h.setSweep
    intro keys' hkeys' k hk
    obtain rfl := Sweep.dropping.inj (Option.some.inj hkeys')
    exact hk.2
  | drop j keys keys' k hj hk hsub hrest =>
    apply (h.drop (h.dropping k ⟨j, keys, hj, hk⟩)).setSweep
    intro keys₁ hkeys₁ k' hk'
    obtain rfl := Sweep.dropping.inj (Option.some.inj hkeys₁)
    exact h.dropping k' ⟨j, keys, hj, hsub hk'⟩
  | swept j hj => exact h.setSweep nofun
  | giveUp j => exact h.setSweep nofun

theorem Sound.steps (h : Sound doc f) (hsteps : Relation.ReflTransGen (Step doc) f f') :
    Sound doc f' := by
  induction hsteps with
  | refl => exact h
  | tail _ hstep ih => exact ih.step hstep

end

/-! ### After the last commit -/

/-- With the copies that wait to be made every row has been copied, and no other copy waits. -/
structure Current (doc : K → V → D) (rows : K → Option (Stamped V)) (docs : K → Option D)
    (pending : Set (K × D)) : Prop where
  covers : Covers doc rows docs (fun _ => True) pending
  row : ∀ k d, (k, d) ∈ pending → rows k ≠ none

section

variable {rows : K → Option (Stamped V)} {docs : K → Option D} {pending : Set (K × D)} {k : K} {d : D}

theorem Current.shrink (h : Current doc rows docs pending) {pending' : Set (K × D)}
    (hsub : pending' ⊆ pending) (hrest : ∀ x ∈ pending, x ∈ pending' ∨ docs x.1 = some x.2) :
    Current doc rows docs pending' :=
  ⟨h.covers.shrink hsub hrest, fun k d hd => h.row k d (hsub hd)⟩

theorem Current.put [DecidableEq K] (h : Current doc rows docs pending)
    (hd : ∀ r, rows k = some r → d = doc k r.value) :
    Current doc rows (Function.update docs k (some d)) pending :=
  ⟨h.covers.put fun r hr _ => hd r hr, h.row⟩

theorem Current.drop [DecidableEq K] (h : Current doc rows docs pending) (hk : rows k = none) :
    Current doc rows (Function.update docs k none) pending := ⟨h.covers.drop hk, h.row⟩

end

/-- Since the pass `i` began no row has changed: from when it has read the rows, every pass copies
what they are now. -/
structure CaughtUp (doc : K → V → D) (i : ℕ) (f : Feed K V D) : Prop where
  copied : f.passes i = some .done → Current doc f.rows f.docs ∅
  writing : ∀ j pending next, f.passes j = some (.writing pending next) →
    j = i ∨ f.passes i = some .done → Current doc f.rows f.docs pending

theorem caughtUp_of_none {i : ℕ} (hi : f.passes i = none) : CaughtUp doc i f := by
  constructor
  · intro hdone
    rw [hi] at hdone
    cases hdone
  · rintro j pending next hj (rfl | hdone)
    · rw [hi] at hj
      cases hj
    · rw [hi] at hdone
      cases hdone

/-- One pass changes; when it gets through there is no other. -/
theorem CaughtUp.setPass {i : ℕ} (h : CaughtUp doc i f) {i' : ℕ} {pass : Option (Pass K D)}
    (hdone : pass = some .done → (i' = i → Current doc f.rows f.docs ∅) ∧ ∀ j, f.Running j → j = i')
    (hwriting : ∀ pending next, pass = some (.writing pending next) →
      i' = i ∨ f.passes i = some .done → Current doc f.rows f.docs pending) :
    CaughtUp doc i { f with passes := Function.update f.passes i' pass } := by
  have hcases : ∀ j p, Function.update f.passes i' pass j = some p →
      j = i' ∧ pass = some p ∨ j ≠ i' ∧ f.passes j = some p := by
    intro j p hp
    by_cases hj : j = i'
    · subst hj
      rw [Function.update_self] at hp
      exact .inl ⟨rfl, hp⟩
    · rw [Function.update_of_ne hj] at hp
      exact .inr ⟨hj, hp⟩
  constructor
  · intro hi
    rcases hcases i _ hi with ⟨rfl, hpass⟩ | ⟨-, hold⟩
    · exact (hdone hpass).1 rfl
    · exact h.copied hold
  · intro j pending next hj hor
    rcases hcases j _ hj with ⟨rfl, hpass⟩ | ⟨hne, hold⟩
    · refine hwriting pending next hpass ?_
      rcases hor with rfl | hi
      · exact .inl rfl
      · rcases hcases i _ hi with ⟨rfl, -⟩ | ⟨-, hi⟩
        · exact .inl rfl
        · exact .inr hi
    · refine h.writing j pending next hold ?_
      rcases hor with rfl | hi
      · exact .inl rfl
      · rcases hcases i _ hi with ⟨rfl, hpass⟩ | ⟨-, hi⟩
        · exact absurd ((hdone hpass).2 j (running_of_writing hold)) hne
        · exact .inr hi

section

variable [DecidableEq K]

/-- A copy that a pass waited to make is made. -/
theorem CaughtUp.put {i : ℕ} (h : CaughtUp doc i f) (hs : Sound doc f) {i' next : ℕ}
    {pending : Set (K × D)} {k : K} {d : D} (hi : f.passes i' = some (.writing pending next))
    (hmem : (k, d) ∈ pending) :
    CaughtUp doc i { f with docs := Function.update f.docs k (some d) } := by
  have hd : i' = i ∨ f.passes i = some .done → ∀ r, f.rows k = some r → d = doc k r.value :=
    fun hor r hr => (h.writing i' pending next hi hor).covers.current k r hr trivial d hmem
  constructor
  · intro hdone
    exact (h.copied hdone).put (hd (.inr hdone))
  · intro j pending' next' hj hor
    obtain rfl := hs.alone j i' (running_of_writing hj) (running_of_writing hi)
    exact (h.writing j pending' next' hj hor).put (hd hor)

theorem CaughtUp.step {i : ℕ} (h : CaughtUp doc i f) (hs : Sound doc f) (hstep : Step doc f f') :
    CaughtUp doc i f' := by
  cases hstep with
  | enter i' hnew hidle =>
    apply h.setPass
    · intro hdone
      cases hdone
    · intro pending next hpass
      cases hpass
  | leave i' hi' =>
    apply h.setPass
    · intro hdone
      cases hdone
    · intro pending next hpass
      cases hpass
  | read i' since next pending hi' hnext hpending =>
    apply h.setPass
    · intro hdone
      cases hdone
    · intro pending' next' hpass _
      obtain ⟨rfl, -⟩ := Pass.writing.inj (Option.some.inj hpass)
      obtain rfl := hs.reading i' since hi'
      refine ⟨hs.copied.read hpending, ?_⟩
      intro k d hd
      obtain ⟨r, hr, -⟩ := (hpending k d).mp hd
      rw [hr]
      exact Option.some_ne_none r
  | copy i' next pending pending' k d hi' hmem hsub hrest =>
    have hput := h.put hs hi' hmem
    apply hput.setPass
    · intro hdone
      cases hdone
    · intro pending₁ next₁ hpass hor
      obtain ⟨rfl, -⟩ := Pass.writing.inj (Option.some.inj hpass)
      refine (hput.writing i' pending next hi' hor).shrink hsub fun x hx => ?_
      rcases hrest x hx with hin | rfl
      · exact .inl hin
      · exact .inr (Function.update_self _ _ _)
  | finish i' next hi' =>
    have hset : CaughtUp doc i { f with passes := Function.update f.passes i' (some .done) } := by
      refine h.setPass (fun _ => ⟨?_, fun j hj => hs.alone j i' hj (running_of_writing hi')⟩) nofun
      rintro rfl
      exact h.writing i' ∅ next hi' (.inl rfl)
    exact ⟨hset.copied, hset.writing⟩
  | scan j keys hnew hkeys => exact ⟨h.copied, h.writing⟩
  | choose j keys hj => exact ⟨h.copied, h.writing⟩
  | drop j keys keys' k hj hk hsub hrest =>
    have hrow := hs.dropping k ⟨j, keys, hj, hk⟩
    constructor
    · intro hdone
      exact (h.copied hdone).drop hrow
    · intro j' pending next hj' hor
      exact (h.writing j' pending next hj' hor).drop hrow
  | swept j hj => exact ⟨h.copied, h.writing⟩
  | giveUp j => exact ⟨h.copied, h.writing⟩

/-- A pass that is through stays so. -/
theorem Step.done {i : ℕ} (hstep : Step doc f f') (hi : f.passes i = some .done) :
    f'.passes i = some .done := by
  have hne : ∀ i' p, f.passes i' = p → p ≠ some .done → i ≠ i' := by
    rintro i' p hp hpne rfl
    exact hpne (hp.symm.trans hi)
  cases hstep with
  | enter i' hnew hidle =>
    exact (Function.update_of_ne (hne i' _ hnew nofun) _ _).trans hi
  | leave i' hi' =>
    obtain ⟨p, hp, hpne⟩ := hi'
    exact (Function.update_of_ne (hne i' _ hp fun h => hpne (Option.some.inj h)) _ _).trans hi
  | read i' since next pending hi' hnext hpending =>
    exact (Function.update_of_ne (hne i' _ hi' nofun) _ _).trans hi
  | copy i' next pending pending' k d hi' hmem hsub hrest =>
    exact (Function.update_of_ne (hne i' _ hi' nofun) _ _).trans hi
  | finish i' next hi' =>
    exact (Function.update_of_ne (hne i' _ hi' nofun) _ _).trans hi
  | scan | choose | drop | swept | giveUp => exact hi

end

/-- Of the copies that there are, the ones that the sweep `j` has not listed have a row. -/
structure Swept (j : ℕ) (f : Feed K V D) : Prop where
  listed : ∀ keys, f.sweeps j = some (.scanned keys) ∨ f.sweeps j = some (.dropping keys) →
    ∀ k, f.docs k ≠ none → k ∈ keys ∨ f.rows k ≠ none
  done : f.sweeps j = some .done → ∀ k, f.docs k ≠ none → f.rows k ≠ none

theorem swept_of_none {j : ℕ} (hj : f.sweeps j = none) : Swept j f := by
  constructor
  · rintro keys (hkeys | hkeys)
    · rw [hj] at hkeys
      cases hkeys
    · rw [hj] at hkeys
      cases hkeys
  · intro hdone
    rw [hj] at hdone
    cases hdone

/-- Copies of rows come, and others go. -/
theorem Swept.setDocs {j : ℕ} (h : Swept j f) {docs : K → Option D}
    (hdocs : ∀ k, docs k ≠ none → f.docs k ≠ none ∨ f.rows k ≠ none) :
    Swept j { f with docs } := by
  constructor
  · intro keys hkeys k hk
    rcases hdocs k hk with hold | hrow
    · exact h.listed keys hkeys k hold
    · exact .inr hrow
  · intro hdone k hk
    rcases hdocs k hk with hold | hrow
    · exact h.done hdone k hold
    · exact hrow

/-- One sweep changes. -/
theorem Swept.setSweep {j : ℕ} (h : Swept j f) {j' : ℕ} {sweep : Option (Sweep K)}
    (hlisted : j' = j → ∀ keys, sweep = some (.scanned keys) ∨ sweep = some (.dropping keys) →
      ∀ k, f.docs k ≠ none → k ∈ keys ∨ f.rows k ≠ none)
    (hdone : j' = j → sweep = some .done → ∀ k, f.docs k ≠ none → f.rows k ≠ none) :
    Swept j { f with sweeps := Function.update f.sweeps j' sweep } := by
  by_cases hj : j' = j
  · subst hj
    constructor
    · intro keys hkeys
      refine hlisted rfl keys ?_
      simpa only [Function.update_self] using hkeys
    · intro hswept
      refine hdone rfl ?_
      simpa only [Function.update_self] using hswept
  · constructor
    · intro keys hkeys
      refine h.listed keys ?_
      simpa only [Function.update_of_ne (Ne.symm hj)] using hkeys
    · intro hswept
      refine h.done ?_
      simpa only [Function.update_of_ne (Ne.symm hj)] using hswept

section

variable [DecidableEq K]

theorem Swept.step {i j : ℕ} (h : Swept j f) (hc : CaughtUp doc i f)
    (hi : f.passes i = some .done) (hstep : Step doc f f') : Swept j f' := by
  cases hstep with
  | enter i' hnew hidle => exact ⟨h.listed, h.done⟩
  | leave i' hi' => exact ⟨h.listed, h.done⟩
  | read i' since next pending hi' hnext hpending => exact ⟨h.listed, h.done⟩
  | copy i' next pending pending' k d hi' hmem hsub hrest =>
    have hrow := (hc.writing i' pending next hi' (.inr hi)).row k d hmem
    have hset : Swept j { f with docs := Function.update f.docs k (some d) } := by
      apply h.setDocs
      intro k' hk'
      by_cases heq : k' = k
      · subst heq
        exact .inr hrow
      · rw [Function.update_of_ne heq] at hk'
        exact .inl hk'
    exact ⟨hset.listed, hset.done⟩
  | finish i' next hi' => exact ⟨h.listed, h.done⟩
  | scan j' keys hnew hkeys =>
    apply h.setSweep
    · rintro - keys' (hkeys' | hkeys') k hk
      · obtain rfl := Sweep.scanned.inj (Option.some.inj hkeys')
        exact .inl (hkeys k hk)
      · cases hkeys'
    · intro _ hdone
      cases hdone
  | choose j' keys hj' =>
    apply h.setSweep
    · rintro rfl keys' (hkeys' | hkeys') k hk
      · cases hkeys'
      · obtain rfl := Sweep.dropping.inj (Option.some.inj hkeys')
        by_cases hrow : f.rows k = none
        · rcases h.listed keys (.inl hj') k hk with hin | hne
          · exact .inl ⟨hin, hrow⟩
          · exact absurd hrow hne
        · exact .inr hrow
    · intro _ hdone
      cases hdone
  | drop j' keys keys' k hj' hk hsub hrest =>
    have hset : Swept j { f with docs := Function.update f.docs k none } := by
      apply h.setDocs
      intro k' hk'
      by_cases heq : k' = k
      · subst heq
        rw [Function.update_self] at hk'
        exact absurd rfl hk'
      · rw [Function.update_of_ne heq] at hk'
        exact .inl hk'
    apply hset.setSweep
    · rintro rfl keys₁ (hkeys₁ | hkeys₁) k' hk'
      · cases hkeys₁
      · obtain rfl := Sweep.dropping.inj (Option.some.inj hkeys₁)
        rcases hset.listed keys (.inr hj') k' hk' with hin | hne
        · rcases hrest k' hin with hin' | rfl
          · exact .inl hin'
          · exact absurd (Function.update_self _ _ _) hk'
        · exact .inr hne
    · intro _ hdone
      cases hdone
  | swept j' hj' =>
    apply h.setSweep
    · rintro - keys (hkeys | hkeys)
      · cases hkeys
      · cases hkeys
    · rintro rfl - k hk
      rcases h.listed ∅ (.inr hj') k hk with hin | hne
      · exact absurd hin (Set.notMem_empty k)
      · exact hne
  | giveUp j' =>
    apply h.setSweep
    · rintro - keys (hkeys | hkeys)
      · cases hkeys
      · cases hkeys
    · intro _ hdone
      cases hdone

/-- A pass that finds no row is through. -/
theorem through_of_no_row (h : Sound doc f) {i since : ℕ} (hi : f.passes i = some (.reading since))
    (hrows : ∀ k r, f.rows k = some r → r.time < since) :
    Relation.ReflTransGen (Step doc) f
      { f with passes := Function.update f.passes i (some .done) } := by
  obtain rfl := h.reading i since hi
  have hread : Step doc f
      { f with passes := Function.update f.passes i (some (.writing ∅ f.watermark)) } := by
    apply Step.read i f.watermark f.watermark ∅ hi le_rfl
    intro k d
    constructor
    · exact fun hin => absurd hin (Set.notMem_empty _)
    · rintro ⟨r, hr, hle, -⟩
      exact absurd (hrows k r hr) (not_lt.mpr hle)
  refine (Relation.ReflTransGen.single hread).tail ?_
  have hfinish : Step doc
      { f with passes := Function.update f.passes i (some (.writing ∅ f.watermark)) } _ :=
    .finish i f.watermark (Function.update_self _ _ _)
  rw [Function.update_idem] at hfinish
  exact hfinish

/-- A sweep that finds the row of every copy it has listed is through. -/
theorem through_of_rows {j : ℕ} {keys : Set K} (hj : f.sweeps j = some (.scanned keys))
    (hkeys : ∀ k ∈ keys, f.rows k ≠ none) :
    Relation.ReflTransGen (Step doc) f
      { f with sweeps := Function.update f.sweeps j (some .done) } := by
  have hnone : {k ∈ keys | f.rows k = none} = ∅ := by
    apply Set.eq_empty_of_forall_notMem
    rintro k ⟨hk, hrow⟩
    exact hkeys k hk hrow
  have hchoose : Step doc f _ := .choose j keys hj
  rw [hnone] at hchoose
  refine (Relation.ReflTransGen.single hchoose).tail ?_
  have hswept : Step doc
      { f with sweeps := Function.update f.sweeps j (some (.dropping ∅)) } _ :=
    .swept j (Function.update_self _ _ _)
  rw [Function.update_idem] at hswept
  exact hswept

/-- A sweep that finds no copy is through. -/
theorem through_of_no_copy {j : ℕ} (hj : f.sweeps j = none) (hdocs : ∀ k, f.docs k = none) :
    Relation.ReflTransGen (Step doc) f
      { f with sweeps := Function.update f.sweeps j (some .done) } := by
  have hscan : Step doc f { f with sweeps := Function.update f.sweeps j (some (.scanned ∅)) } :=
    .scan j ∅ hj fun k hk => absurd (hdocs k) hk
  have hrest : Relation.ReflTransGen (Step doc)
      { f with sweeps := Function.update f.sweeps j (some (.scanned ∅)) } _ :=
    through_of_rows (Function.update_self _ _ _) fun k hk => absurd hk (Set.notMem_empty k)
  rw [Function.update_idem] at hrest
  exact .head hscan hrest

/-- After the last commit, a pass and then a sweep, each from its beginning to its end, leave exactly
the copies of the rows, whatever other passes and sweeps do meanwhile. -/
theorem exact_of_pass_of_sweep {f₀ f₁ f₂ : Feed K V D} (hs : Sound doc f₀) {i j : ℕ}
    (hpass : Relation.ReflTransGen (Step doc) f₀ f₁) (hi₀ : f₀.passes i = none)
    (hi₁ : f₁.passes i = some .done)
    (hsweep : Relation.ReflTransGen (Step doc) f₁ f₂) (hj₁ : f₁.sweeps j = none)
    (hj₂ : f₂.sweeps j = some .done) (k : K) :
    f₂.docs k = (f₂.rows k).map fun r => doc k r.value := by
  -- up to the end of the pass, no row changes and the pass knows all of them
  have hcaught : Sound doc f₁ ∧ CaughtUp doc i f₁ := by
    clear hsweep hi₁ hj₁
    induction hpass with
    | refl => exact ⟨hs, caughtUp_of_none hi₀⟩
    | tail _ hstep ih => exact ⟨ih.1.step hstep, ih.2.step ih.1 hstep⟩
  -- up to the end of the sweep, every new copy is of a row
  have hend : Sound doc f₂ ∧ CaughtUp doc i f₂ ∧ f₂.passes i = some .done ∧ Swept j f₂ := by
    clear hj₂
    induction hsweep with
    | refl => exact ⟨hcaught.1, hcaught.2, hi₁, swept_of_none hj₁⟩
    | tail _ hstep ih =>
      have ⟨hsound, hcaughtUp, hdone, hswept⟩ := ih
      exact ⟨hsound.step hstep, hcaughtUp.step hsound hstep, hstep.done hdone,
        hswept.step hcaughtUp hdone hstep⟩
  have ⟨_, hcaughtUp, hdone, hswept⟩ := hend
  cases hrow : f₂.rows k with
  | none =>
    by_contra hne
    exact hswept.done hj₂ k hne hrow
  | some r =>
    rcases (hcaughtUp.copied hdone).covers.covered k r hrow trivial with hin | hdoc
    · exact absurd hin (Set.notMem_empty _)
    · exact hdoc

end

end Feed

end SaccoPlatform.Lib
