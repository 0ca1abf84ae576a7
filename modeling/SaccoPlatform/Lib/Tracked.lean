import Mathlib.Logic.Function.Basic
import Mathlib.Tactic.Common

/-!
# Objects that remember what they were loaded with

An object of a unit of work holds the attributes of a row that it has loaded, and of each one that was
set the value from before it was set, if that was known. From this it is told what the row has to be
updated with, and what the object looked like before.
-/

namespace SaccoPlatform.Lib

/-- The loaded attributes, and for each one that was set the value from before: `some none` where it
was set without having been loaded. -/
structure Tracked (κ ν : Type) where
  dict : κ → Option ν
  committed : κ → Option (Option ν)

namespace Tracked

variable {κ ν : Type}

/-- The object as it is read from the row. -/
def ofRow (row : κ → ν) : Tracked κ ν := ⟨fun k => some (row k), fun _ => none⟩

/-- Nothing is loaded. -/
def expired : Tracked κ ν := ⟨fun _ => none, fun _ => none⟩

/-- The row fills in what is not there. -/
def load (x : Tracked κ ν) (row : κ → ν) : Tracked κ ν :=
  { x with dict := fun k => some ((x.dict k).getD (row k)) }

def set [DecidableEq κ] (x : Tracked κ ν) (k : κ) (v : ν) : Tracked κ ν where
  dict := Function.update x.dict k (some v)
  committed := Function.update x.committed k (some ((x.committed k).getD (x.dict k)))

section

variable (same : κ → ν → ν → Bool) (x : Tracked κ ν) (k : κ)

/-- The attribute was set to something else. -/
def changed : Bool :=
  match x.committed k with
  | none => false
  | some original => !original.any fun o => (x.dict k).any fun v => same k v o

/-- The value that the attribute was changed from, if it is known. -/
def deleted : Option ν := if x.changed same k then (x.committed k).getD none else none

/-- The value from before as far as the object can tell: where it was set without having been loaded,
it is the new one. -/
def seenBefore : Option ν := (x.deleted same k).or (x.dict k)

/-- The row after an update with what was changed. -/
def write (keep : κ → ν → ν) (row : κ → ν) : ν :=
  if x.changed same k then (x.dict k).elim (row k) (keep k) else row k

end

theorem deleted_of_changed {same : κ → ν → ν → Bool} {x : Tracked κ ν} {k : κ}
    (h : x.changed same k = true) : x.deleted same k = (x.committed k).getD none := if_pos h

theorem deleted_of_not_changed {same : κ → ν → ν → Bool} {x : Tracked κ ν} {k : κ}
    (h : x.changed same k = false) : x.deleted same k = none := by
  unfold deleted
  rw [h]
  rfl

end Tracked

end SaccoPlatform.Lib
