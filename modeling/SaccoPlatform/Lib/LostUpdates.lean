import Mathlib.Algebra.Order.Group.Defs
import Mathlib.Logic.Function.Basic
import Mathlib.Tactic.Common

/-!
# A shared sum that is read and written back

Several writers add to one register: each reads it, and later writes back what it read plus its own
contribution, whatever the register holds by then. `sum` is what the register should hold. As long as
every write finds the value that its writer read, the register holds the sum; the first write that
does not loses an update, and no later write makes up for it.
-/

namespace SaccoPlatform.Lib

/-- The register, the sum of all contributions, and what the writers `ι` have read. -/
@[ext]
structure Register (ι G : Type) where
  value : G
  sum : G
  reads : ι → Option G

namespace Register

variable {ι G : Type} [DecidableEq ι]

/-- A writer reads the register. -/
def read (r : Register ι G) (i : ι) : Register ι G :=
  { r with reads := Function.update r.reads i (some r.value) }

/-- A writer leaves without writing. -/
def leave (r : Register ι G) (i : ι) : Register ι G :=
  { r with reads := Function.update r.reads i none }

/-- A writer that read `seen` writes its contribution `a`. -/
def publish [Add G] (r : Register ι G) (i : ι) (seen a : G) : Register ι G where
  value := seen + a
  sum := r.sum + a
  reads := Function.update r.reads i none

/-- Everything that was read has the property. -/
def AllReads (P : G → Prop) (reads : ι → Option G) : Prop := ∀ i, ∀ seen ∈ reads i, P seen

theorem AllReads.update {P : G → Prop} {reads : ι → Option G} (h : AllReads P reads) (i : ι)
    {o : Option G} (ho : ∀ seen ∈ o, P seen) : AllReads P (Function.update reads i o) := by
  intro j
  by_cases hij : j = i
  · subst hij
    rw [Function.update_self]
    exact ho
  · rw [Function.update_of_ne hij]
    exact h j

theorem AllReads.drop {P : G → Prop} {reads : ι → Option G} (h : AllReads P reads) (i : ι) :
    AllReads P (Function.update reads i none) := h.update i fun _ hnone => nomatch hnone

omit [DecidableEq ι] in
theorem AllReads.mono {P Q : G → Prop} {reads : ι → Option G} (h : AllReads P reads)
    (hPQ : ∀ seen, P seen → Q seen) : AllReads Q reads := fun i seen hseen => hPQ seen (h i seen hseen)

/-- The register holds the sum, and nobody has read more than that. -/
structure Healthy [LE G] (r : Register ι G) : Prop where
  value : r.value = r.sum
  reads : AllReads (· ≤ r.sum) r.reads

/-- The register holds less than the sum, and so does everything that was read. -/
structure Broken [LT G] (r : Register ι G) : Prop where
  value : r.value < r.sum
  reads : AllReads (· < r.sum) r.reads

section

variable [LinearOrder G] {r : Register ι G}

theorem Healthy.read (h : r.Healthy) (i : ι) : (r.read i).Healthy where
  value := h.value
  reads := h.reads.update i fun _ hseen => Option.mem_some_iff.mp hseen ▸ h.value.le

theorem Broken.read (h : r.Broken) (i : ι) : (r.read i).Broken where
  value := h.value
  reads := h.reads.update i fun _ hseen => Option.mem_some_iff.mp hseen ▸ h.value

theorem Healthy.leave (h : r.Healthy) (i : ι) : (r.leave i).Healthy where
  value := h.value
  reads := h.reads.drop i

theorem Broken.leave (h : r.Broken) (i : ι) : (r.leave i).Broken where
  value := h.value
  reads := h.reads.drop i

end

section

variable [AddCommGroup G] [LinearOrder G] [IsOrderedAddMonoid G] {r : Register ι G} {i : ι}
  {seen a : G}

/-- A write over the value that was read. -/
theorem Healthy.publish (h : r.Healthy) (ha : 0 ≤ a) (hseen : r.value = seen) :
    (r.publish i seen a).Healthy where
  value := by
    show seen + a = r.sum + a
    rw [← hseen, h.value]
  reads := by
    refine AllReads.drop ?_ i
    exact h.reads.mono fun seen hle => hle.trans (le_add_of_nonneg_right ha)

/-- A write over another value loses what came in between. -/
theorem Healthy.publish_lost (h : r.Healthy) (ha : 0 < a) (hread : r.reads i = some seen)
    (hseen : r.value ≠ seen) : (r.publish i seen a).Broken where
  value := by
    have hle : seen ≤ r.sum := h.reads i seen hread
    have hne : seen ≠ r.sum := fun heq => hseen (h.value.trans heq.symm)
    exact add_lt_add_of_lt_of_le (hle.lt_of_ne hne) le_rfl
  reads := by
    refine AllReads.drop ?_ i
    exact h.reads.mono fun seen hle => hle.trans_lt (lt_add_of_pos_right _ ha)

theorem Broken.publish (h : r.Broken) (ha : 0 ≤ a) (hread : r.reads i = some seen) :
    (r.publish i seen a).Broken where
  value := add_lt_add_of_lt_of_le (h.reads i seen hread) le_rfl
  reads := by
    refine AllReads.drop ?_ i
    exact h.reads.mono fun seen hlt => hlt.trans_le (le_add_of_nonneg_right ha)

end

end Register

end SaccoPlatform.Lib
