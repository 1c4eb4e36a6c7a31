import Mathlib.Data.List.Dedup
import Mathlib.Tactic.Common

set_option relaxedAutoImplicit false
set_option autoImplicit false

/-!
# Reference counts

Objects that are shared by counted references. What matters of the references is which object each
of them refers to, so they are given as a list of objects, one entry for each reference; the use
count of an object is how often it occurs.

## Main definitions

* `Foundations.useCount`, `Foundations.Unique` — how many references an object has.
* `Foundations.release` — the objects destroyed when references are given up.

## Main results

* `Foundations.not_unique_of_copy` — an object of which a reference was just copied is not unique.
* `Foundations.release_self` — giving up all references destroys each object once.
-/

namespace Foundations

variable {ι : Type*} [DecidableEq ι]

/-- How many references there are to an object. -/
def useCount (refs : List ι) (i : ι) : ℕ := refs.count i

/-- An object has one reference. -/
def Unique (refs : List ι) (i : ι) : Prop := useCount refs i = 1

instance (refs : List ι) (i : ι) : Decidable (Unique refs i) :=
  inferInstanceAs (Decidable (_ = _))

/-- An object of which a reference was just copied has the reference and the copy. -/
lemma not_unique_of_copy {refs : List ι} {i : ι} (h : i ∈ refs) : ¬ Unique (i :: refs) i := by
  have hpos := List.count_pos_iff.mpr h
  unfold Unique useCount
  rw [List.count_cons_self]
  omega

/-- The objects destroyed, in order, when of the references `refs` those of a list are given up,
one after the other: each object with its last reference. -/
def release : List ι → List ι → List ι
  | _, [] => []
  | refs, i :: is =>
    if i ∈ refs.erase i then release (refs.erase i) is else i :: release (refs.erase i) is

/-- **Giving up all references** destroys each object once, in the order of the last references.

**Proof sketch.** The first reference goes; the object goes with it unless it is among the rest. -/
theorem release_self (refs : List ι) : release refs refs = refs.dedup := by
  induction refs with
  | nil => rfl
  | cons i is ih =>
    unfold release
    rw [List.erase_cons_head, ih]
    by_cases h : i ∈ is
    · rw [if_pos h, List.dedup_cons_of_mem h]
    · rw [if_neg h, List.dedup_cons_of_notMem h]

end Foundations
