import Mathlib.Algebra.BigOperators.Group.List.Basic
import Mathlib.Algebra.GroupWithZero.Nat
import Mathlib.Data.List.Basic
import Mathlib.Tactic.Common

set_option relaxedAutoImplicit false
set_option autoImplicit false

/-!
# Balanced loads

Elements of a list with a load each. Whoever gives the next piece of work to an element that has
the least load keeps the loads within one of each other, whatever element of the least load it is.

## Main definitions

* `Foundations.Balanced` — the loads are within one of each other.
* `Foundations.FirstLeast` — the first element of those with the least load.

## Main results

* `Foundations.FirstLeast.concat_of_le`, `Foundations.FirstLeast.concat_of_lt` — the first least
  element when one more is looked at.
* `Foundations.Balanced.modify` — a piece of work for an element of the least load.
* `Foundations.sum_map_modify`, `Foundations.sum_map_set` — the total load when one element changes.
-/

namespace Foundations

variable {α : Type*} {load : α → ℕ}

/-- **The loads are balanced**: no two differ by more than one. -/
def Balanced (load : α → ℕ) (xs : List α) : Prop := ∀ x ∈ xs, ∀ y ∈ xs, load x ≤ load y + 1

/-- **The first least element** of a list, and its position: no element has a smaller load, and
those before it have a greater one. -/
structure FirstLeast (load : α → ℕ) (xs : List α) (i : ℕ) (x : α) : Prop where
  /-- The element at the position. -/
  get : xs[i]? = some x
  /-- It has the least load. -/
  least : ∀ y ∈ xs, load x ≤ load y
  /-- It is the first that has. -/
  first : ∀ j < i, ∀ y, xs[j]? = some y → load x < load y

/-- A single element is the first least one. -/
lemma firstLeast_singleton (x : α) : FirstLeast load [x] 0 x := by
  refine ⟨rfl, fun y hy => ?_, fun j hj => absurd hj (Nat.not_lt_zero j)⟩
  obtain rfl := List.mem_singleton.mp hy
  exact Nat.le_refl _

/-- A position of a list is before its end. -/
lemma FirstLeast.lt_length {xs : List α} {i : ℕ} {x : α} (h : FirstLeast load xs i x) :
    i < xs.length := (List.getElem?_eq_some_iff.mp h.get).1

/-- One more element that has no smaller load changes nothing. -/
lemma FirstLeast.concat_of_le {xs : List α} {i : ℕ} {x y : α} (h : FirstLeast load xs i x)
    (hle : load x ≤ load y) : FirstLeast load (xs ++ [y]) i x := by
  refine ⟨?_, fun z hz => ?_, fun j hj z hz => ?_⟩
  · rw [List.getElem?_append_left h.lt_length]
    exact h.get
  · rcases List.mem_append.mp hz with hz | hz
    · exact h.least z hz
    · rw [List.mem_singleton.mp hz]
      exact hle
  · rw [List.getElem?_append_left (Nat.lt_trans hj h.lt_length)] at hz
    exact h.first j hj z hz

/-- One more element that has a smaller load is the first least one. -/
lemma FirstLeast.concat_of_lt {xs : List α} {i : ℕ} {x y : α} (h : FirstLeast load xs i x)
    (hlt : load y < load x) : FirstLeast load (xs ++ [y]) xs.length y := by
  refine ⟨List.getElem?_concat_length, fun z hz => ?_, fun j hj z hz => ?_⟩
  · rcases List.mem_append.mp hz with hz | hz
    · exact Nat.le_trans (Nat.le_of_lt hlt) (h.least z hz)
    · obtain rfl := List.mem_singleton.mp hz
      exact Nat.le_refl _
  · rw [List.getElem?_append_left hj] at hz
    exact Nat.lt_of_lt_of_le hlt (h.least z (List.mem_of_getElem? hz))

/-- **A piece of work for an element of the least load** keeps the loads balanced.

**Proof sketch.** The load that has grown is one above the least, and no other has grown. -/
theorem Balanced.modify {xs : List α} {i : ℕ} {x : α} {f : α → α} (h : Balanced load xs)
    (hx : xs[i]? = some x) (hleast : ∀ y ∈ xs, load x ≤ load y)
    (hf : load (f x) = load x + 1) : Balanced load (xs.modify i f) := by
  have hcases : ∀ y ∈ xs.modify i f, y = f x ∨ y ∈ xs := by
    intro y hy
    obtain ⟨j, hj⟩ := List.mem_iff_getElem?.mp hy
    rw [List.getElem?_modify] at hj
    obtain ⟨z, hz, rfl⟩ := Option.map_eq_some_iff.mp hj
    by_cases hij : i = j
    · subst hij
      rw [if_pos rfl, Option.some.inj (hz.symm.trans hx)]
      exact Or.inl rfl
    · rw [if_neg hij]
      exact Or.inr (List.mem_of_getElem? hz)
  have hmem : x ∈ xs := List.mem_of_getElem? hx
  intro y hy z hz
  rcases hcases y hy with rfl | hy
  · rcases hcases z hz with rfl | hz
    · exact Nat.le_succ _
    · have hle := hleast z hz
      omega
  · rcases hcases z hz with rfl | hz
    · have hle := h y hy x hmem
      omega
    · exact h y hy z hz

/-- The total load when one element is replaced. -/
lemma sum_map_modify (load : α → ℕ) (g : α → α) {l : List α} {i : ℕ} {a : α}
    (h : l[i]? = some a) :
    ((l.modify i g).map load).sum + load a = (l.map load).sum + load (g a) := by
  induction l generalizing i with
  | nil => simp at h
  | cons c l ih =>
    cases i with
    | zero =>
      obtain rfl : c = a := by simpa using h
      simp only [List.modify_zero_cons, List.map_cons, List.sum_cons]
      omega
    | succ i =>
      have hi := ih (i := i) (by simpa using h)
      simp only [List.modify_succ_cons, List.map_cons, List.sum_cons]
      omega

/-- The total load when an element takes the place of another. -/
lemma sum_map_set (load : α → ℕ) {l : List α} {i : ℕ} {a : α} (h : l[i]? = some a) (b : α) :
    ((l.set i b).map load).sum + load a = (l.map load).sum + load b := by
  rw [List.set_eq_modify]
  exact sum_map_modify load (fun _ => b) h

end Foundations
