import Mathlib.Data.List.Basic
import Mathlib.Tactic.Common

set_option relaxedAutoImplicit false
set_option autoImplicit false

/-!
# Maps with a history

The `std::map` of the C++ standard library as far as assignments and lookups go: its entries, with
one for each key. After any sequence of assignments, what is found under a key is the value of the
last assignment to it.

## Main definitions

* `Foundations.StdMap` — the entries; `Foundations.StdMap.store`, `Foundations.StdMap.find`.
* `Foundations.lastAssigned` — the value of the last assignment to a key.

## Main results

* `Foundations.StdMap.find_store` — an assignment changes one key.
* `Foundations.StdMap.find_storeAll` — the last assignment is the one found.
-/

namespace Foundations

variable {κ β : Type} [DecidableEq κ]

/-- A map: the entries, with one for each key. -/
abbrev StdMap (κ β : Type) := List (κ × β)

/-- The value of the last assignment to a key. -/
def lastAssigned (key : κ) : List (κ × β) → Option β
  | [] => none
  | (key', value) :: rest =>
    (lastAssigned key rest).or (if key = key' then some value else none)

namespace StdMap

/-- Assign the entry of a key, which is created if there is none. -/
def store (m : StdMap κ β) (key : κ) (value : β) : StdMap κ β :=
  (key, value) :: m.filter fun entry => entry.1 ≠ key

/-- The entry of a key. -/
def find (m : StdMap κ β) (key : κ) : Option β := m.lookup key

/-- Assignments, one after the other. -/
def storeAll (m : StdMap κ β) (assignments : List (κ × β)) : StdMap κ β :=
  assignments.foldl (fun m a => m.store a.1 a.2) m

/-- Dropping the entry of another key does not change what is found. -/
lemma find_filter {key key' : κ} (hne : key' ≠ key) (m : StdMap κ β) :
    find (m.filter fun entry => entry.1 ≠ key) key' = m.find key' := by
  induction m with
  | nil => rfl
  | cons entry m ih =>
    obtain ⟨k, value⟩ := entry
    unfold find at ih ⊢
    by_cases hk : k = key
    · have hk' : (key' == k) = false := by simpa [hk] using hne
      rw [List.filter_cons_of_neg (by simpa using hk), ih, List.lookup_cons, hk']
    · rw [List.filter_cons_of_pos (by simpa using hk), List.lookup_cons, List.lookup_cons, ih]

/-- **An assignment changes one key.** -/
theorem find_store (m : StdMap κ β) (key key' : κ) (value : β) :
    (m.store key value).find key' = if key' = key then some value else m.find key' := by
  split_ifs with heq
  · simp [store, find, heq]
  · have hne : (key' == key) = false := by simpa using heq
    rw [← find_filter heq m, store, find, List.lookup_cons, hne]
    rfl

/-- **The last assignment is the one found.**

**Proof sketch.** Induction on the assignments: the first one is found unless there is another to
the same key. -/
theorem find_storeAll (m : StdMap κ β) (assignments : List (κ × β)) (key : κ) :
    (m.storeAll assignments).find key = (lastAssigned key assignments).or (m.find key) := by
  induction assignments generalizing m with
  | nil => rfl
  | cons a rest ih =>
    have hfirst : (m.store a.1 a.2).find key =
        (if key = a.1 then some a.2 else none).or (m.find key) := by
      rw [find_store]
      split <;> rfl
    show ((m.store a.1 a.2).storeAll rest).find key = _
    rw [ih, hfirst, lastAssigned, Option.or_assoc]

end StdMap

end Foundations
