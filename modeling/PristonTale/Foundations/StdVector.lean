import Mathlib.Data.List.Basic
import Mathlib.Tactic.Common

set_option relaxedAutoImplicit false
set_option autoImplicit false

/-!
# Growable arrays with a storage identity

The `std::vector` of the C++ standard library as far as programs can observe it: its elements,
its capacity, and which block of memory holds the elements. `resize` past the capacity moves the
elements to a fresh block; the old block's contents are lost to whoever still points into it.
How much capacity the library then reserves is not specified, so it is a parameter, a function
of the old capacity and of the new size.

## Main definitions

* `Foundations.overwrite` — copying a list over the elements of another from an index on.
* `Foundations.StdVector` — elements, capacity and block number.
* `Foundations.StdVector.resize`, `Foundations.StdVector.copyIn` — the operations used.

## Main results

* `Foundations.take_overwrite` — the elements up to the end of the copy.
* `Foundations.StdVector.block_resize_of_le`, `Foundations.StdVector.block_resize_of_lt` — a vector
  keeps its block within its capacity and moves to a fresh one past it.
-/

namespace Foundations

variable {α : Type*}

/-- Copy `xs` over the elements of `l` from index `i` on. -/
def overwrite (l : List α) (i : ℕ) (xs : List α) : List α :=
  l.take i ++ xs ++ l.drop (i + xs.length)

/-- A copy that ends within the list keeps its length. -/
lemma length_overwrite {l : List α} {i : ℕ} {xs : List α} (h : i + xs.length ≤ l.length) :
    (overwrite l i xs).length = l.length := by
  simp only [overwrite, List.length_append, List.length_take, List.length_drop]
  omega

/-- The elements up to the end of the copy: the old ones before it, then the copy. -/
lemma take_overwrite {l : List α} {i : ℕ} (xs : List α) (hi : i ≤ l.length) :
    (overwrite l i xs).take (i + xs.length) = l.take i ++ xs := by
  have hlen : (l.take i ++ xs).length = i + xs.length := by
    rw [List.length_append, List.length_take, Nat.min_eq_left hi]
  rw [overwrite, ← hlen, List.take_left]

/-- A vector: its elements, its capacity and the block of memory that holds them. -/
structure StdVector (α : Type*) where
  /-- The elements. -/
  data : List α
  /-- How many elements the block has room for. -/
  capacity : ℕ
  /-- The number of the block: a fresh one each time the elements move. -/
  block : ℕ

namespace StdVector

/-- The number of elements. -/
def size (v : StdVector α) : ℕ := v.data.length

/-- A new vector of `n` copies of `x`. -/
def replicate (n : ℕ) (x : α) : StdVector α := ⟨List.replicate n x, n, 0⟩

/-- Change the size to `n`, filling new elements with `x`: in place while the capacity allows,
in a fresh block of capacity `grow v.capacity n` (at least `n`) otherwise. -/
def resize (grow : ℕ → ℕ → ℕ) (v : StdVector α) (n : ℕ) (x : α) : StdVector α :=
  if n ≤ v.size then { v with data := v.data.take n }
  else if n ≤ v.capacity then { v with data := v.data ++ List.replicate (n - v.size) x }
  else
    { data := v.data ++ List.replicate (n - v.size) x
      capacity := max n (grow v.capacity n)
      block := v.block + 1 }

/-- Copy `xs` over the elements from index `i` on. -/
def copyIn (v : StdVector α) (i : ℕ) (xs : List α) : StdVector α :=
  { v with data := overwrite v.data i xs }

variable (grow : ℕ → ℕ → ℕ) (v : StdVector α)

/-- A vector of `n` copies has `n` elements. -/
@[simp] lemma size_replicate (n : ℕ) (x : α) : (replicate n x).size = n := by
  simp [size, replicate]

/-- `resize` gives the size asked for. -/
@[simp] lemma size_resize (n : ℕ) (x : α) : (v.resize grow n x).size = n := by
  unfold resize size
  split_ifs <;> simp only [List.length_take, List.length_append, List.length_replicate] <;> omega

/-- Growing a vector keeps its elements. -/
lemma take_data_resize {n j : ℕ} (x : α) (hn : v.size ≤ n) (hj : j ≤ v.size) :
    (v.resize grow n x).data.take j = v.data.take j := by
  unfold size at hn hj
  unfold resize size
  split_ifs with h₁ h₂
  · rw [List.take_take, Nat.min_eq_left (by omega)]
  · rw [List.take_append_of_le_length hj]
  · rw [List.take_append_of_le_length hj]

/-- A vector keeps its block when it is resized within its capacity. -/
lemma block_resize_of_le {n : ℕ} (x : α) (hn : n ≤ v.capacity) :
    (v.resize grow n x).block = v.block := by
  unfold resize
  split_ifs <;> rfl

/-- A vector keeps its capacity when it is resized within it. -/
lemma capacity_resize_of_le {n : ℕ} (x : α) (hn : n ≤ v.capacity) :
    (v.resize grow n x).capacity = v.capacity := by
  unfold resize
  split_ifs <;> rfl

/-- A vector moves to a fresh block when it outgrows its capacity. -/
lemma block_resize_of_lt {n : ℕ} (x : α) (hv : v.size ≤ v.capacity) (hn : v.capacity < n) :
    (v.resize grow n x).block = v.block + 1 := by
  unfold resize
  rw [if_neg (by omega), if_neg (by omega)]

/-- Copying into a vector does not reallocate it. -/
@[simp] lemma block_copyIn (i : ℕ) (xs : List α) : (v.copyIn i xs).block = v.block := rfl

/-- Copying into a vector leaves its capacity. -/
@[simp] lemma capacity_copyIn (i : ℕ) (xs : List α) :
    (v.copyIn i xs).capacity = v.capacity := rfl

/-- Copying into a vector overwrites elements. -/
@[simp] lemma data_copyIn (i : ℕ) (xs : List α) :
    (v.copyIn i xs).data = overwrite v.data i xs := rfl

/-- A copy that ends within the vector keeps its size. -/
lemma size_copyIn {i : ℕ} {xs : List α} (h : i + xs.length ≤ v.size) :
    (v.copyIn i xs).size = v.size :=
  length_overwrite h

end StdVector

end Foundations
