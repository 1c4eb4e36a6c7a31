import Mathlib.Data.List.Nodup
import Mathlib.Data.List.TakeWhile
import Mathlib.Tactic.Common

set_option relaxedAutoImplicit false
set_option autoImplicit false

/-!
# Iterators of a set from which elements are taken

A set is iterated over in some order of the elements it has at the start, while elements are taken
from it. An iterator is the element it points to, or none at the end; it goes on to the next element
in the order that is still there.

## Main definitions

* `Foundations.firstOf`, `Foundations.nextOf` — `begin`, and the increment of an iterator.
* `Foundations.passedBy` — the elements behind an iterator.

## Main results

* `Foundations.mem_passedBy_nextOf` — an increment passes the element pointed to and those that are
  not there.
* `Foundations.length_passedBy_lt` — each increment passes an element at least.
-/

namespace Foundations

variable {α : Type*} (order : List α) (p : α → Bool)

/-- `begin`: the first element, `p` being those that are there. -/
def firstOf : Option α := order.find? p

variable [DecidableEq α]

/-- The increment of an iterator that points to `a`. -/
def nextOf (a : α) : Option α := (order.dropWhile fun b => b ≠ a).tail.find? p

/-- The elements behind an iterator. -/
def passedBy : Option α → List α
  | none => order
  | some a => order.takeWhile fun b => b ≠ a

variable {order p}

/-- The elements behind an iterator that points to the first `a`. -/
lemma passedBy_append {pre post : List α} {a : α} (ha : a ∉ pre) :
    passedBy (pre ++ a :: post) (some a) = pre := by
  rw [passedBy, List.takeWhile_append_of_pos fun b hb => by
    simpa using fun heq : b = a => ha (heq ▸ hb)]
  simp

/-- The increment of an iterator that points to the first `a`. -/
lemma nextOf_append {pre post : List α} {a : α} (ha : a ∉ pre) :
    nextOf (pre ++ a :: post) p a = post.find? p := by
  rw [nextOf, List.dropWhile_append_of_pos fun b hb => by
    simpa using fun heq : b = a => ha (heq ▸ hb)]
  simp

/-- An iterator at the first element that is there has passed none that is. -/
lemma mem_passedBy_firstOf {b : α} (hb : b ∈ passedBy order (firstOf order p)) : p b = false := by
  cases hfirst : firstOf order p with
  | none =>
    rw [hfirst] at hb
    exact Bool.not_eq_true _ ▸ List.find?_eq_none.mp hfirst b hb
  | some a =>
    obtain ⟨ha, pre, post, rfl, hpre⟩ := List.find?_eq_some_iff_append.mp hfirst
    have hnot : a ∉ pre := fun hmem => by simpa [ha] using hpre a hmem
    rw [hfirst, passedBy_append hnot] at hb
    simpa using hpre b hb

/-- The parts of an order around an element and the next one that is there. -/
lemma nextOf_cases (hnodup : order.Nodup) {a : α} (ha : a ∈ order) :
    ∃ pre skipped, (∀ b ∈ skipped, p b = false) ∧ passedBy order (some a) = pre ∧
      passedBy order (nextOf order p a) = pre ++ a :: skipped ∧
      ∀ b, nextOf order p a = some b → b ∈ order ∧ p b = true := by
  obtain ⟨pre, post, rfl, hpre⟩ := List.eq_append_cons_of_mem ha
  rw [nextOf_append hpre, passedBy_append hpre]
  cases hnext : post.find? p with
  | none =>
    refine ⟨pre, post, fun b hb => ?_, rfl, rfl, fun b hb => by cases hb⟩
    exact Bool.not_eq_true _ ▸ List.find?_eq_none.mp hnext b hb
  | some b =>
    obtain ⟨hb, skipped, rest, rfl, hskipped⟩ := List.find?_eq_some_iff_append.mp hnext
    refine ⟨pre, skipped, fun c hc => by simpa using hskipped c hc, rfl, ?_, fun c hc => ?_⟩
    · have hsplit : pre ++ a :: (skipped ++ b :: rest) = (pre ++ a :: skipped) ++ b :: rest := by
        simp
      rw [hsplit] at hnodup ⊢
      refine passedBy_append fun hmem => ?_
      exact (List.nodup_append.mp hnodup).2.2 b hmem b List.mem_cons_self rfl
    · obtain rfl := Option.some.inj hc
      exact ⟨by simp, hb⟩

/-- **An increment passes the element pointed to, and elements that are not there.** -/
lemma mem_passedBy_nextOf (hnodup : order.Nodup) {a b : α} (ha : a ∈ order)
    (hb : b ∈ passedBy order (nextOf order p a)) :
    b ∈ passedBy order (some a) ∨ b = a ∨ p b = false := by
  obtain ⟨pre, skipped, hskipped, hpre, hnext, -⟩ := nextOf_cases (p := p) hnodup ha
  rw [hnext] at hb
  rw [hpre]
  rcases List.mem_append.mp hb with hb | hb
  · exact .inl hb
  · rcases List.mem_cons.mp hb with rfl | hb
    · exact .inr (.inl rfl)
    · exact .inr (.inr (hskipped b hb))

/-- An increment passes the element pointed to. -/
lemma self_mem_passedBy_nextOf (hnodup : order.Nodup) {a : α} (ha : a ∈ order) :
    a ∈ passedBy order (nextOf order p a) := by
  obtain ⟨pre, skipped, -, -, hnext, -⟩ := nextOf_cases (p := p) hnodup ha
  rw [hnext]
  simp

/-- **Each increment passes an element at least.** -/
lemma length_passedBy_lt (hnodup : order.Nodup) {a : α} (ha : a ∈ order) :
    (passedBy order (some a)).length < (passedBy order (nextOf order p a)).length := by
  obtain ⟨pre, skipped, -, hpre, hnext, -⟩ := nextOf_cases (p := p) hnodup ha
  rw [hpre, hnext, List.length_append, List.length_cons]
  omega

/-- An iterator goes on to an element that is there. -/
lemma nextOf_eq_some (hnodup : order.Nodup) {a b : α} (ha : a ∈ order)
    (h : nextOf order p a = some b) : b ∈ order ∧ p b = true := by
  obtain ⟨-, -, -, -, -, hsome⟩ := nextOf_cases (p := p) hnodup ha
  exact hsome b h

/-- What an iterator has passed comes in the order. -/
lemma length_passedBy_le (order : List α) (i : Option α) :
    (passedBy order i).length ≤ order.length := by
  cases i with
  | none => exact Nat.le_refl _
  | some a => exact (List.takeWhile_sublist _).length_le

/-- An iterator has not passed the element it points to. -/
lemma not_mem_passedBy (a : α) : a ∉ passedBy order (some a) := by
  intro h
  simpa using List.mem_takeWhile_imp h

end Foundations
