import Mathlib.Algebra.BigOperators.Group.List.Basic
import Mathlib.Algebra.GroupWithZero.Nat
import Mathlib.Data.List.Basic
import Mathlib.Tactic.Common

set_option relaxedAutoImplicit false
set_option autoImplicit false

/-!
# Threads and a mutex

Threads that each stand at a control point, and a mutex that guards what they share. At some points
a thread holds the mutex. What a point asserts of the shared data is worth keeping only while the
mutex is held: so the thread that holds it may change the data as it likes, as long as it meets what
its own next point asserts.

## Main definitions

* `Foundations.Exclusive` — the owner of the mutex is the thread that stands where it holds it.
* `Foundations.Asserted` — each thread meets what its point asserts.

## Main results

* `Foundations.Exclusive.acquire`, `Foundations.Exclusive.release`, `Foundations.Exclusive.keep` —
  the steps of a thread.
* `Foundations.Asserted.by_owner`, `Foundations.Asserted.of_unowned` — the shared data may change
  while its own thread holds the mutex, and while none does.
* `Foundations.sum_map_set_lt` — a step of one thread to a point of lower rank lowers their sum.
-/

namespace Foundations

variable {π δ : Type*} {Holds : π → Prop} {points : List π} {i : ℕ} {p p' : π}

/-- The point of a thread after another thread may have moved. -/
lemma getElem?_set_cases {j : ℕ} {q : π} (h : (points.set i p)[j]? = some q) :
    (j = i ∧ q = p) ∨ (j ≠ i ∧ points[j]? = some q) := by
  rw [List.getElem?_set] at h
  split_ifs at h with hij hlt
  · exact Or.inl ⟨hij.symm, (Option.some.inj h).symm⟩
  · exact Or.inr ⟨fun heq => hij heq.symm, h⟩

/-- A thread stands where it has been moved. -/
lemma getElem?_set_self_of_some {q : π} (h : points[i]? = some q) :
    (points.set i p)[i]? = some p :=
  List.getElem?_set_self (List.getElem?_eq_some_iff.mp h).1

/-! ## The owner of the mutex -/

/-- **Mutual exclusion**: the owner of the mutex is one of the threads, and the threads that stand
where the mutex is held are its owner and no other. -/
structure Exclusive (Holds : π → Prop) (points : List π) (owner : Option ℕ) : Prop where
  /-- A thread stands where it holds the mutex exactly when it is its owner. -/
  holds_iff : ∀ (i : ℕ) (p : π), points[i]? = some p → (Holds p ↔ owner = some i)
  /-- The owner is one of the threads. -/
  owner_lt : ∀ i, owner = some i → i < points.length

/-- No thread holds a mutex that is free. -/
lemma Exclusive.not_holds (h : Exclusive Holds points none) (hp : points[i]? = some p) :
    ¬ Holds p := fun hh => nomatch (h.holds_iff i p hp).mp hh

/-- A thread that holds the mutex is its owner, and no other thread holds it. -/
lemma Exclusive.not_holds_of_ne {owner : Option ℕ} {j : ℕ} {q : π}
    (h : Exclusive Holds points owner) (hp : points[i]? = some p) (hh : Holds p)
    (hq : points[j]? = some q) (hne : j ≠ i) : ¬ Holds q := by
  intro hhq
  have hi := (h.holds_iff i p hp).mp hh
  have hj := (h.holds_iff j q hq).mp hhq
  exact hne (Option.some.inj (hj.symm.trans hi))

/-- **A thread takes the mutex**, which is free. -/
lemma Exclusive.acquire (h : Exclusive Holds points none) (hp : points[i]? = some p)
    (hh : Holds p') : Exclusive Holds (points.set i p') (some i) := by
  have hlt := (List.getElem?_eq_some_iff.mp hp).1
  refine ⟨fun j q hq => ?_, fun j hj => ?_⟩
  · rcases getElem?_set_cases hq with ⟨rfl, rfl⟩ | ⟨hne, hq⟩
    · exact iff_of_true hh rfl
    · exact iff_of_false (h.not_holds hq) fun heq => hne (Option.some.inj heq).symm
  · rw [List.length_set, ← Option.some.inj hj]
    exact hlt

/-- **A thread releases the mutex.** -/
lemma Exclusive.release {owner : Option ℕ} (h : Exclusive Holds points owner)
    (hp : points[i]? = some p) (hh : Holds p) (hh' : ¬ Holds p') :
    Exclusive Holds (points.set i p') none := by
  refine ⟨fun j q hq => ?_, fun j hj => nomatch hj⟩
  rcases getElem?_set_cases hq with ⟨rfl, rfl⟩ | ⟨hne, hq⟩
  · exact iff_of_false hh' nofun
  · exact iff_of_false (h.not_holds_of_ne hp hh hq hne) nofun

/-- **A thread goes on**, holding the mutex or not as before. -/
lemma Exclusive.keep {owner : Option ℕ} (h : Exclusive Holds points owner)
    (hp : points[i]? = some p) (hiff : Holds p' ↔ Holds p) :
    Exclusive Holds (points.set i p') owner := by
  refine ⟨fun j q hq => ?_, fun j hj => ?_⟩
  · rcases getElem?_set_cases hq with ⟨rfl, rfl⟩ | ⟨-, hq⟩
    · rw [hiff]
      exact h.holds_iff j p hp
    · exact h.holds_iff j q hq
  · rw [List.length_set]
    exact h.owner_lt j hj

/-- Threads may all be moved to points where they hold the mutex or not as before. -/
lemma Exclusive.map {owner : Option ℕ} {f : π → π} (h : Exclusive Holds points owner)
    (hf : ∀ p, Holds (f p) ↔ Holds p) : Exclusive Holds (points.map f) owner := by
  refine ⟨fun j q hq => ?_, fun j hj => ?_⟩
  · rw [List.getElem?_map] at hq
    obtain ⟨q', hq', rfl⟩ := Option.map_eq_some_iff.mp hq
    rw [hf]
    exact h.holds_iff j q' hq'
  · rw [List.length_map]
    exact h.owner_lt j hj

/-! ## What the points assert -/

/-- **Each thread meets what its point asserts** of the shared data. -/
def Asserted (A : π → δ → Prop) (points : List π) (d : δ) : Prop :=
  ∀ (i : ℕ) (p : π), points[i]? = some p → A p d

variable {A : π → δ → Prop} {d d' : δ}

/-- **The owner's step**: the thread that holds the mutex may change the data, as long as it meets
what its next point asserts; the other points assert nothing. -/
lemma Asserted.by_owner {owner : Option ℕ} (hA : ∀ q d, ¬ Holds q → A q d)
    (hex : Exclusive Holds points owner) (hp : points[i]? = some p) (hh : Holds p)
    (hp' : A p' d') : Asserted A (points.set i p') d' := by
  intro j q hq
  rcases getElem?_set_cases hq with ⟨rfl, rfl⟩ | ⟨hne, hq⟩
  · exact hp'
  · exact hA q d' (hex.not_holds_of_ne hp hh hq hne)

/-- While the mutex is free no point asserts anything. -/
lemma Asserted.of_unowned (hA : ∀ q d, ¬ Holds q → A q d) (hex : Exclusive Holds points none)
    (d : δ) : Asserted A points d := fun _ q hq => hA q d (hex.not_holds hq)

/-- A step that does not touch the shared data. -/
lemma Asserted.set (h : Asserted A points d) (hp' : A p' d) :
    Asserted A (points.set i p') d := by
  intro j q hq
  rcases getElem?_set_cases hq with ⟨-, rfl⟩ | ⟨-, hq⟩
  · exact hp'
  · exact h j q hq

/-- A step that changes the shared data, but nothing that a point asserts. -/
lemma Asserted.imp (h : Asserted A points d) (hd : ∀ p, A p d → A p d') :
    Asserted A points d' := fun i q hq => hd q (h i q hq)

/-- Threads may all be moved to points that assert no more. -/
lemma Asserted.map {f : π → π} (h : Asserted A points d) (hf : ∀ p, A p d → A (f p) d) :
    Asserted A (points.map f) d := by
  intro j q hq
  rw [List.getElem?_map] at hq
  obtain ⟨q', hq', rfl⟩ := Option.map_eq_some_iff.mp hq
  exact hf q' (h j q' hq')

/-! ## Progress -/

/-- **A step to a point of lower rank** lowers the sum of the ranks. -/
lemma sum_map_set_lt (rank : π → ℕ) (hp : points[i]? = some p) (hlt : rank p' < rank p) :
    ((points.set i p').map rank).sum < (points.map rank).sum := by
  induction points generalizing i with
  | nil => exact nomatch hp
  | cons q qs ih =>
    cases i with
    | zero =>
      obtain rfl := Option.some.inj hp
      exact Nat.add_lt_add_right hlt _
    | succ i => exact Nat.add_lt_add_left (ih hp) _

end Foundations
