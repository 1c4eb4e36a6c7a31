import Mathlib.Data.List.Basic
import Mathlib.Tactic.Common

set_option relaxedAutoImplicit false
set_option autoImplicit false

/-!
# The first occurrence of a list in another

Searching a list for a part of it, as `std::string::find` does: the first position at which all the
elements looked for come one after the other.

## Main definitions

* `Foundations.OccursAt` — a list comes in another at a position.
* `Foundations.firstOccurrence` — the first such position.

## Main results

* `Foundations.firstOccurrence_eq_some_iff`, `Foundations.firstOccurrence_eq_none_iff` — what is
  found.
-/

namespace Foundations

variable {α : Type*}

/-- The elements of `key` come in `text` from position `i` on. -/
def OccursAt (key text : List α) (i : ℕ) : Prop := i ≤ text.length ∧ key <+: text.drop i

/-- An occurrence behind the first element. -/
lemma occursAt_cons_succ {key text : List α} {c : α} {i : ℕ} :
    OccursAt key (c :: text) (i + 1) ↔ OccursAt key text i := by
  rw [OccursAt, List.length_cons, Nat.add_le_add_iff_right, List.drop_succ_cons, OccursAt]

/-- An occurrence at the start. -/
lemma occursAt_zero {key text : List α} : OccursAt key text 0 ↔ key <+: text := by
  rw [OccursAt, List.drop_zero, and_iff_right (Nat.zero_le _)]

/-- What occurs ends within the text. -/
lemma OccursAt.add_length_le {key text : List α} {i : ℕ} (h : OccursAt key text i) :
    i + key.length ≤ text.length := by
  have hlength := h.2.length_le
  rw [List.length_drop] at hlength
  have := h.1
  omega

/-- An occurrence of what is one element longer. -/
lemma occursAt_concat_iff {key text : List α} {c : α} {i : ℕ} :
    OccursAt (key ++ [c]) text i ↔ OccursAt key text i ∧ text[i + key.length]? = some c := by
  constructor
  · rintro ⟨hi, rest, hrest⟩
    refine ⟨⟨hi, [c] ++ rest, by rw [← hrest, List.append_assoc]⟩, ?_⟩
    rw [← List.getElem?_drop, ← hrest, List.append_assoc,
      List.getElem?_append_right (Nat.le_refl _), Nat.sub_self]
    rfl
  · rintro ⟨⟨hi, rest, hrest⟩, hc⟩
    rw [← List.getElem?_drop, ← hrest, List.getElem?_append_right (Nat.le_refl _),
      Nat.sub_self] at hc
    cases rest with
    | nil => simp at hc
    | cons d rest =>
      refine ⟨hi, rest, ?_⟩
      rw [← hrest, ← Option.some.inj hc, List.append_assoc]
      rfl

variable [DecidableEq α]

/-- The first position at which the elements of `key` come in a text. -/
def firstOccurrence (key : List α) : List α → Option ℕ
  | [] => if key = [] then some 0 else none
  | c :: cs =>
    if key.isPrefixOf (c :: cs) then some 0 else (firstOccurrence key cs).map (· + 1)

/-- **What is found**: an occurrence before which there is none, or that there is none at all.

**Proof sketch.** Induction on the text: the key comes at its start, or it is looked for behind the
first element. -/
lemma firstOccurrence_spec (key text : List α) :
    match firstOccurrence key text with
    | some i => OccursAt key text i ∧ ∀ j < i, ¬ OccursAt key text j
    | none => ∀ i, ¬ OccursAt key text i := by
  induction text with
  | nil =>
    by_cases hkey : key = []
    · rw [firstOccurrence, if_pos hkey]
      exact ⟨⟨Nat.le_refl _, hkey ▸ List.nil_prefix⟩, fun j hj => absurd hj (Nat.not_lt_zero j)⟩
    · rw [firstOccurrence, if_neg hkey]
      intro i hi
      have hnil := hi.2
      rw [List.drop_nil, List.prefix_nil] at hnil
      exact hkey hnil
  | cons c cs ih =>
    by_cases hstart : key.isPrefixOf (c :: cs) = true
    · rw [firstOccurrence, if_pos hstart]
      exact ⟨occursAt_zero.mpr (List.isPrefixOf_iff_prefix.mp hstart),
        fun j hj => absurd hj (Nat.not_lt_zero j)⟩
    · have hzero : ¬ OccursAt key (c :: cs) 0 := fun h =>
        hstart (List.isPrefixOf_iff_prefix.mpr (occursAt_zero.mp h))
      rw [firstOccurrence, if_neg hstart]
      cases hrest : firstOccurrence key cs with
      | none =>
        rw [hrest] at ih
        intro i
        cases i with
        | zero => exact hzero
        | succ i => exact fun h => ih i (occursAt_cons_succ.mp h)
      | some k =>
        rw [hrest] at ih
        refine ⟨occursAt_cons_succ.mpr ih.1, fun j hj => ?_⟩
        cases j with
        | zero => exact hzero
        | succ j => exact fun h => ih.2 j (Nat.lt_of_succ_lt_succ hj) (occursAt_cons_succ.mp h)

/-- **The position found** is the first at which the key occurs. -/
theorem firstOccurrence_eq_some_iff {key text : List α} {i : ℕ} :
    firstOccurrence key text = some i ↔
      OccursAt key text i ∧ ∀ j < i, ¬ OccursAt key text j := by
  have hspec := firstOccurrence_spec key text
  constructor
  · intro h
    rwa [h] at hspec
  · rintro ⟨hi, hfirst⟩
    cases h : firstOccurrence key text with
    | none =>
      rw [h] at hspec
      exact absurd hi (hspec i)
    | some k =>
      rw [h] at hspec
      rcases Nat.lt_trichotomy k i with hlt | rfl | hgt
      · exact absurd hspec.1 (hfirst k hlt)
      · rfl
      · exact absurd hi (hspec.2 i hgt)

/-- **Nothing is found** when the key occurs nowhere. -/
theorem firstOccurrence_eq_none_iff {key text : List α} :
    firstOccurrence key text = none ↔ ∀ i, ¬ OccursAt key text i := by
  have hspec := firstOccurrence_spec key text
  constructor
  · intro h
    rwa [h] at hspec
  · intro hno
    cases h : firstOccurrence key text with
    | none => rfl
    | some k =>
      rw [h] at hspec
      exact absurd hspec.1 (hno k)

end Foundations
