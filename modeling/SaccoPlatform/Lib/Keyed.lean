import Mathlib.Data.List.Nodup
import Mathlib.Data.List.MinMax
import Mathlib.Algebra.BigOperators.Group.List.Basic
import Mathlib.Tactic.Abel
import Mathlib.Tactic.Common

/-!
# Tables with a primary key

A table whose rows have distinct keys, by construction: rows are found, written back and added
through the operations below, and none of them can give two rows one key.
-/

namespace SaccoPlatform.Lib

/-- The rows of a table, no two of them with the same key. -/
structure Keyed {α κ : Type} (key : α → κ) where
  rows : List α
  nodup : (rows.map key).Nodup

instance {α κ : Type} [DecidableEq α] (key : α → κ) : DecidableEq (Keyed key)
  | ⟨xs, _⟩, ⟨ys, _⟩ =>
    decidable_of_iff (xs = ys) ⟨fun h => by subst h; rfl, fun h => congrArg Keyed.rows h⟩

namespace Keyed

section

variable {α κ : Type} {key : α → κ}

/-- Rows of one key are one row. -/
theorem eq_of_key (t : Keyed key) {r r' : α} (hr : r ∈ t.rows) (hr' : r' ∈ t.rows)
    (h : key r = key r') : r = r' := List.inj_on_of_nodup_map t.nodup hr hr' h

variable [DecidableEq κ]

/-- `SELECT ... WHERE key = k`. -/
def get? (t : Keyed key) (k : κ) : Option α := t.rows.find? fun r => key r = k

/-- `UPDATE` of the row with the key of `row`. -/
def put (t : Keyed key) (row : α) : Keyed key where
  rows := t.rows.map fun r => if key r = key row then row else r
  nodup := by
    have hkeys : (t.rows.map fun r => if key r = key row then row else r).map key
        = t.rows.map key := by
      rw [List.map_map]
      apply List.map_congr_left
      intro r _
      by_cases h : key r = key row <;> simp [h]
    rw [hkeys]
    exact t.nodup

theorem get?_eq_some {t : Keyed key} {k : κ} {r : α} :
    t.get? k = some r ↔ r ∈ t.rows ∧ key r = k := by
  constructor
  · intro h
    exact ⟨List.mem_of_find?_eq_some h, by simpa using List.find?_some h⟩
  · rintro ⟨hr, rfl⟩
    have hsome : (t.get? (key r)).isSome := by
      rw [get?, List.find?_isSome]
      exact ⟨r, hr, by simp⟩
    obtain ⟨r', hr'⟩ := Option.isSome_iff_exists.mp hsome
    have hkey : key r' = key r := by simpa using List.find?_some hr'
    rw [hr', t.eq_of_key (List.mem_of_find?_eq_some hr') hr hkey]

theorem mem_of_get? {t : Keyed key} {k : κ} {r : α} (h : t.get? k = some r) : r ∈ t.rows :=
  (get?_eq_some.mp h).1

theorem key_of_get? {t : Keyed key} {k : κ} {r : α} (h : t.get? k = some r) : key r = k :=
  (get?_eq_some.mp h).2

theorem get?_of_mem {t : Keyed key} {r : α} (h : r ∈ t.rows) : t.get? (key r) = some r :=
  get?_eq_some.mpr ⟨h, rfl⟩

/-- A row that is written back is found under its key, every other row stays. -/
theorem get?_put (t : Keyed key) (row : α) (k : κ) :
    (t.put row).get? k = if key row = k then (t.get? k).map fun _ => row else t.get? k := by
  have hsame : ((fun r => decide (key r = k)) ∘ fun r => if key r = key row then row else r)
      = fun r => decide (key r = k) := by
    funext r
    by_cases h : key r = key row <;> simp [h]
  rw [get?, put, List.find?_map, hsame]
  show (t.get? k).map _ = _
  cases hr : t.get? k with
  | none => simp
  | some r =>
    have hkey : key r = k := key_of_get? hr
    rw [Option.map_some, hkey]
    by_cases h : key row = k
    · rw [if_pos h.symm, if_pos h, Option.map_some]
    · rw [if_neg (Ne.symm h), if_neg h]

theorem get?_put_self {t : Keyed key} {row r : α} {k : κ} (h : t.get? k = some r)
    (hkey : key row = k) : (t.put row).get? k = some row := by
  rw [get?_put, if_pos hkey, h, Option.map_some]

theorem get?_put_of_ne (t : Keyed key) {row : α} {k : κ} (h : key row ≠ k) :
    (t.put row).get? k = t.get? k := by
  rw [get?_put, if_neg h]

theorem mem_put {t : Keyed key} {row r : α} :
    r ∈ (t.put row).rows ↔
      (r ∈ t.rows ∧ key r ≠ key row) ∨ (r = row ∧ ∃ r₀ ∈ t.rows, key r₀ = key row) := by
  simp only [put, List.mem_map]
  constructor
  · rintro ⟨r₀, hr₀, rfl⟩
    by_cases h : key r₀ = key row
    · rw [if_pos h]
      exact .inr ⟨rfl, r₀, hr₀, h⟩
    · rw [if_neg h]
      exact .inl ⟨hr₀, h⟩
  · rintro (⟨hr, h⟩ | ⟨rfl, r₀, hr₀, h⟩)
    · exact ⟨r, hr, if_neg h⟩
    · exact ⟨r₀, hr₀, if_pos h⟩

/-- What a row written back shares with the row it replaces stays, for all rows. -/
theorem map_put {β : Type} {f : α → β} {g : β → κ} (hg : ∀ r, g (f r) = key r) {t : Keyed key}
    {row : α} (hrow : f row ∈ t.rows.map f) : (t.put row).rows.map f = t.rows.map f := by
  obtain ⟨r₀, hr₀, hf⟩ := List.mem_map.mp hrow
  show (t.rows.map _).map f = _
  rw [List.map_map]
  apply List.map_congr_left
  intro r hr
  by_cases h : key r = key row
  · have hkey : key r₀ = key r := by rw [h, ← hg r₀, hf, hg]
    rw [Function.comp_apply, if_pos h, ← hf, t.eq_of_key hr₀ hr hkey]
  · rw [Function.comp_apply, if_neg h]

theorem map_foldl_put {β : Type} {f : α → β} {g : β → κ} (hg : ∀ r, g (f r) = key r) {h : α → α}
    (hh : ∀ r, f (h r) = f r) {rows : List α} {t : Keyed key}
    (hrows : ∀ r ∈ rows, f r ∈ t.rows.map f) :
    (rows.foldl (fun t r => t.put (h r)) t).rows.map f = t.rows.map f := by
  induction rows generalizing t with
  | nil => rfl
  | cons r rows ih =>
    have hfirst : (t.put (h r)).rows.map f = t.rows.map f :=
      map_put hg ((hh r).symm ▸ hrows r List.mem_cons_self)
    rw [List.foldl_cons, ih, hfirst]
    intro r' hr'
    rw [hfirst]
    exact hrows r' (List.mem_cons_of_mem _ hr')

/-- A row that is written back changes a sum over the rows by what it adds. -/
theorem sum_put {M : Type} [AddCommGroup M] (f : α → M) {t : Keyed key} {row r : α}
    (h : t.get? (key row) = some r) :
    ((t.put row).rows.map f).sum = (t.rows.map f).sum + (f row - f r) := by
  obtain ⟨hr, hkey⟩ := get?_eq_some.mp h
  obtain ⟨front, rest, hrows⟩ := List.append_of_mem hr
  have hnodup := t.nodup
  rw [hrows, List.map_append, List.map_cons, List.nodup_append] at hnodup
  -- the rows before and after have other keys
  have hfront : ∀ x ∈ front, (if key x = key row then row else x) = x := by
    intro x hx
    refine if_neg fun heq => ?_
    exact hnodup.2.2 (key x) (List.mem_map_of_mem hx) (key r) List.mem_cons_self
      (heq.trans hkey.symm)
  have hrest : ∀ x ∈ rest, (if key x = key row then row else x) = x := by
    intro x hx
    refine if_neg fun heq => ?_
    exact (List.nodup_cons.mp hnodup.2.1).1 (hkey.trans heq.symm ▸ List.mem_map_of_mem hx)
  have hput : (t.put row).rows = front ++ row :: rest := by
    show t.rows.map (fun x => if key x = key row then row else x) = _
    rw [hrows, List.map_append, List.map_cons, if_pos hkey, List.map_congr_left hfront,
      List.map_congr_left hrest, List.map_id', List.map_id']
  rw [hput, hrows]
  simp only [List.map_append, List.map_cons, List.sum_append, List.sum_cons]
  abel

/-! ### Rows that come and go -/

/-- Insert `row`, or replace the row of its key. -/
def store (t : Keyed key) (row : α) : Keyed key where
  rows := t.rows.filter (fun r => key r ≠ key row) ++ [row]
  nodup := by
    rw [List.map_append, List.map_singleton]
    refine List.Nodup.append (t.nodup.sublist (List.filter_sublist.map key))
      (List.nodup_singleton _) ?_
    intro k hk hk'
    rw [List.mem_singleton] at hk'
    obtain ⟨r, hr, rfl⟩ := List.mem_map.mp hk
    simp [hk'] at hr

/-- Delete the row of a key. -/
def erase (t : Keyed key) (k : κ) : Keyed key where
  rows := t.rows.filter fun r => key r ≠ k
  nodup := t.nodup.sublist (List.filter_sublist.map key)

theorem mem_store {t : Keyed key} {row r : α} :
    r ∈ (t.store row).rows ↔ r = row ∨ r ∈ t.rows ∧ key r ≠ key row := by
  simp [store, or_comm]

theorem mem_erase {t : Keyed key} {k : κ} {r : α} : r ∈ (t.erase k).rows ↔ r ∈ t.rows ∧ key r ≠ k := by
  simp [erase]

theorem get?_store (t : Keyed key) (row : α) (k : κ) :
    (t.store row).get? k = if key row = k then some row else t.get? k := by
  ext r
  rw [get?_eq_some, mem_store]
  by_cases h : key row = k
  · rw [if_pos h]
    constructor
    · rintro ⟨rfl | ⟨-, hne⟩, hkey⟩
      · rfl
      · exact absurd (hkey.trans h.symm) hne
    · intro hr
      cases hr
      exact ⟨.inl rfl, h⟩
  · rw [if_neg h, get?_eq_some]
    constructor
    · rintro ⟨rfl | ⟨hr, -⟩, hkey⟩
      · exact absurd hkey h
      · exact ⟨hr, hkey⟩
    · rintro ⟨hr, hkey⟩
      exact ⟨.inr ⟨hr, fun heq => h (heq.symm.trans hkey)⟩, hkey⟩

theorem get?_erase (t : Keyed key) (k k' : κ) :
    (t.erase k).get? k' = if k' = k then none else t.get? k' := by
  ext r
  rw [get?_eq_some, mem_erase]
  by_cases h : k' = k
  · rw [if_pos h]
    constructor
    · rintro ⟨⟨-, hne⟩, hkey⟩
      exact absurd (hkey.trans h) hne
    · intro hr
      cases hr
  · rw [if_neg h, get?_eq_some]
    constructor
    · rintro ⟨⟨hr, -⟩, hkey⟩
      exact ⟨hr, hkey⟩
    · rintro ⟨hr, hkey⟩
      exact ⟨⟨hr, fun heq => h (hkey.symm.trans heq)⟩, hkey⟩

/-! ### Queries over all rows -/

/-- `UPDATE` of all rows, with the keys as they are. -/
def mapRows (t : Keyed key) (f : α → α) (hf : ∀ r, key (f r) = key r) : Keyed key where
  rows := t.rows.map f
  nodup := by
    have hkeys : (t.rows.map f).map key = t.rows.map key := by
      rw [List.map_map]
      exact List.map_congr_left fun r _ => hf r
    rw [hkeys]
    exact t.nodup

theorem get?_mapRows (t : Keyed key) {f : α → α} (hf : ∀ r, key (f r) = key r) (k : κ) :
    (t.mapRows f hf).get? k = (t.get? k).map f := by
  have hsame : (fun r => decide (key r = k)) ∘ f = fun r => decide (key r = k) := by
    funext r
    show decide (key (f r) = k) = _
    rw [hf]
  rw [get?, mapRows, List.find?_map, hsame]
  rfl

/-- The rows with one key. -/
theorem filter_key (t : Keyed key) (k : κ) :
    (t.rows.filter fun r => key r = k) = (t.get? k).toList := by
  obtain ⟨rows, hnodup⟩ := t
  show _ = (rows.find? fun r => key r = k).toList
  induction rows with
  | nil => rfl
  | cons r rows ih =>
    rw [List.map_cons, List.nodup_cons] at hnodup
    rw [List.filter_cons, List.find?_cons]
    by_cases h : key r = k
    · -- no later row has this key
      have hnil : (rows.filter fun r => key r = k) = [] := by
        rw [List.filter_eq_nil_iff]
        intro r' hr' heq
        have hr : key r' = key r := by simpa [h] using heq
        exact hnodup.1 (hr ▸ List.mem_map_of_mem hr')
      simp [h, hnil]
    · simpa [h] using ih hnodup.2

/-- Several rows are written back, one after the other. -/
theorem get?_foldl_put {f : α → α} (hf : ∀ r, key (f r) = key r) {rows : List α}
    (hnodup : (rows.map key).Nodup) (t : Keyed key) (k : κ) :
    (rows.foldl (fun t r => t.put (f r)) t).get? k =
      (t.get? k).map fun r => ((rows.find? fun r => key r = k).map f).getD r := by
  induction rows generalizing t with
  | nil => simp
  | cons x rows ih =>
    rw [List.map_cons, List.nodup_cons] at hnodup
    rw [List.foldl_cons, ih hnodup.2, List.find?_cons]
    by_cases h : key x = k
    · -- no later row has this key
      have hnone : (rows.find? fun r => key r = k) = none := by
        rw [List.find?_eq_none]
        intro r hr heq
        have hr' : key r = key x := by simpa [h] using heq
        exact hnodup.1 (hr' ▸ List.mem_map_of_mem hr)
      rw [get?_put, hf, if_pos h, hnone]
      simp [h, Function.comp_def]
    · rw [get?_put, hf, if_neg h]
      simp [h]

/-- The rows of a query are written back, each changed by `f`. -/
theorem get?_foldl_put_filter {f : α → α} (hf : ∀ r, key (f r) = key r) (p : α → Bool)
    (t : Keyed key) (k : κ) :
    ((t.rows.filter p).foldl (fun t r => t.put (f r)) t).get? k =
      (t.get? k).map fun r => if p r then f r else r := by
  have hnodup : ((t.rows.filter p).map key).Nodup :=
    t.nodup.sublist (List.filter_sublist.map key)
  rw [get?_foldl_put hf hnodup]
  cases hr : t.get? k with
  | none => rfl
  | some r =>
    have hfind : ((t.rows.filter p).find? fun r => key r = k) = if p r then some r else none := by
      rw [← List.head?_filter, List.filter_filter, List.filter_congr fun r _ => Bool.and_comm _ _,
        ← List.filter_filter, filter_key, hr]
      by_cases hp : p r = true <;> simp [hp]
    rw [Option.map_some, Option.map_some, hfind]
    split <;> rfl

end

section

variable {α : Type} {key : α → ℕ}

/-- A key that no row has: what `uuid4` yields. -/
def fresh (t : Keyed key) : ℕ := (t.rows.map key).foldr max 0 + 1

theorem lt_fresh {t : Keyed key} {r : α} (h : r ∈ t.rows) : key r < t.fresh := by
  have hle : ∀ ks : List ℕ, ∀ k ∈ ks, k ≤ ks.foldr max 0 := by
    intro ks
    induction ks with
    | nil => exact fun _ h => nomatch h
    | cons k' ks ih =>
      intro k hk
      rw [List.foldr_cons]
      rcases List.mem_cons.mp hk with rfl | hk
      · exact le_max_left _ _
      · exact (ih k hk).trans (le_max_right _ _)
  have hmax := hle (t.rows.map key) (key r) (List.mem_map_of_mem h)
  unfold fresh
  omega

/-- `INSERT` of a row whose key is drawn anew. -/
def insertNew (t : Keyed key) (f : ℕ → α) (hf : ∀ k, key (f k) = k) : Keyed key where
  rows := t.rows ++ [f t.fresh]
  nodup := by
    rw [List.map_append, List.map_singleton, hf]
    refine List.Nodup.append t.nodup (List.nodup_singleton _) ?_
    intro k hk hk'
    rw [List.mem_singleton] at hk'
    obtain ⟨r, hr, rfl⟩ := List.mem_map.mp hk
    exact absurd hk' (lt_fresh hr).ne

variable {f : ℕ → α} {hf : ∀ k, key (f k) = k}

@[simp] theorem rows_insertNew (t : Keyed key) :
    (t.insertNew f hf).rows = t.rows ++ [f t.fresh] := rfl

theorem get?_insertNew_of_some {t : Keyed key} {k : ℕ} {r : α} (h : t.get? k = some r) :
    (t.insertNew f hf).get? k = some r := by
  obtain ⟨hr, hkey⟩ := get?_eq_some.mp h
  exact get?_eq_some.mpr ⟨by simp [hr], hkey⟩

end

end Keyed

end SaccoPlatform.Lib
