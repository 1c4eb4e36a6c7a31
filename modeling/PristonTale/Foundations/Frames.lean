import Mathlib.Data.List.Basic
import Mathlib.Tactic.Common

set_option relaxedAutoImplicit false
set_option autoImplicit false

/-!
# Frames that announce their length

A stream of frames, each of which says how long it is in the first few of its elements. The reader
takes the frames off the stream as long as they are whole.

## Main definitions

* `Foundations.FrameFormat` — where a frame says how long it is.
* `Foundations.FrameFormat.unframe` — the whole frames at the start of a stream.

## Main results

* `Foundations.FrameFormat.unframe_flatten` — the reader recovers the frames that were sent.
* `Foundations.FrameFormat.unframe_flatten_iff` — it recovers nothing that was not framed.
* `Foundations.FrameFormat.unframe_of_prefix` — of a stream that is cut off, it recovers those that
  have arrived whole.
-/

namespace Foundations

/-- A format of frames. -/
structure FrameFormat (α : Type*) where
  /-- How many elements say how long a frame is. -/
  header : ℕ
  /-- How long they say it is. -/
  size : List α → ℕ
  /-- They are there. -/
  header_pos : 0 < header
  /-- No others do. -/
  size_append : ∀ xs ys, header ≤ xs.length → size (xs ++ ys) = size xs

namespace FrameFormat

variable {α : Type*} (F : FrameFormat α)

/-- A list of elements is a frame: it is as long as it says. -/
def Framed (xs : List α) : Prop := F.header ≤ xs.length ∧ F.size xs = xs.length

/-- The stream starts with a whole frame. -/
def Starts (xs : List α) : Prop :=
  F.header ≤ xs.length ∧ F.header ≤ F.size xs ∧ F.size xs ≤ xs.length

instance (xs : List α) : Decidable (F.Starts xs) :=
  inferInstanceAs (Decidable (_ ∧ _ ∧ _))

/-- The whole frames at the start of a stream. -/
def unframe (xs : List α) : List (List α) :=
  if F.Starts xs then xs.take (F.size xs) :: unframe (xs.drop (F.size xs)) else []
termination_by xs.length
decreasing_by
  have h : F.Starts xs := by assumption
  have hpos := F.header_pos
  have hheader := h.1
  have hsize := h.2.1
  rw [List.length_drop]
  omega

/-- A stream that does not start with a whole frame. -/
lemma unframe_of_not_starts {xs : List α} (h : ¬ F.Starts xs) : F.unframe xs = [] := by
  rw [unframe, if_neg h]

/-- What is read off a stream are frames.

**Proof sketch.** Each that is taken is as long as the stream says at its start, and its own first
elements are those of the stream. -/
lemma framed_of_mem_unframe {xs f : List α} (h : f ∈ F.unframe xs) : F.Framed f := by
  induction xs using unframe.induct F with
  | case1 xs hstarts ih =>
    rw [unframe, if_pos hstarts] at h
    rcases List.mem_cons.mp h with rfl | h
    · obtain ⟨hheader, hsize, hle⟩ := hstarts
      have hlength : (xs.take (F.size xs)).length = F.size xs := List.length_take_of_le hle
      have hsame := F.size_append (xs.take (F.size xs)) (xs.drop (F.size xs)) (by rwa [hlength])
      rw [List.take_append_drop] at hsame
      exact ⟨by rwa [hlength], by rw [hlength]; exact hsame.symm⟩
    · exact ih h
  | case2 xs hstarts =>
    rw [F.unframe_of_not_starts hstarts] at h
    exact absurd h List.not_mem_nil

/-- Nothing is read off an empty stream. -/
@[simp] lemma unframe_nil : F.unframe [] = [] := by
  refine F.unframe_of_not_starts fun h => ?_
  have hpos := F.header_pos
  have hheader : F.header ≤ 0 := h.1
  omega

/-- The frame at the start of a stream is read first. -/
lemma unframe_append {xs : List α} (h : F.Framed xs) (ys : List α) :
    F.unframe (xs ++ ys) = xs :: F.unframe ys := by
  have hsize : F.size (xs ++ ys) = xs.length := (F.size_append xs ys h.1).trans h.2
  have hstarts : F.Starts (xs ++ ys) := by
    have hheader := h.1
    refine ⟨?_, ?_, ?_⟩
    · rw [List.length_append]
      omega
    · rw [hsize]
      exact hheader
    · rw [hsize, List.length_append]
      omega
  rw [unframe, if_pos hstarts, hsize, List.take_left, List.drop_left]

/-- **The reader recovers the frames that were sent.** -/
theorem unframe_flatten {fs : List (List α)} (h : ∀ f ∈ fs, F.Framed f) :
    F.unframe fs.flatten = fs := by
  induction fs with
  | nil => exact F.unframe_nil
  | cons f fs ih =>
    rw [List.flatten_cons, F.unframe_append (h f List.mem_cons_self),
      ih fun g hg => h g (List.mem_cons_of_mem f hg)]

/-- Whatever the reader takes off a stream is a frame, so it recovers what was sent exactly if all
of it was framed. -/
lemma unframe_flatten_iff {fs : List (List α)} :
    F.unframe fs.flatten = fs ↔ ∀ f ∈ fs, F.Framed f :=
  ⟨fun heq _ hf => F.framed_of_mem_unframe (heq.symm ▸ hf), F.unframe_flatten⟩

/-- A part of a frame is not a whole one. -/
lemma not_starts_of_prefix {xs ys : List α} (h : F.Framed ys) (hle : xs <+: ys)
    (hlt : xs.length < ys.length) : ¬ F.Starts xs := by
  obtain ⟨zs, rfl⟩ := hle
  intro hstarts
  have hsize := (F.size_append xs zs hstarts.1).symm.trans h.2
  have hle := hstarts.2.2
  omega

/-- **Of a stream that is cut off, the reader recovers the frames that have arrived whole**: they
are the first of those that were sent, and the rest of the stream is part of the next.

**Proof sketch.** Induction on the frames. Either the first has arrived, and the reader takes it and
goes on; or what has arrived is part of it (`not_starts_of_prefix`). -/
theorem unframe_of_prefix {fs : List (List α)} (h : ∀ f ∈ fs, F.Framed f) {xs : List α}
    (hle : xs <+: fs.flatten) : F.unframe xs <+: fs ∧
      ∀ f, (F.unframe xs ++ [f]) <+: fs → xs.length < ((F.unframe xs ++ [f]).flatten).length := by
  induction fs generalizing xs with
  | nil =>
    obtain rfl : xs = [] := List.prefix_nil.mp hle
    rw [F.unframe_nil]
    refine ⟨List.prefix_rfl, fun f hf => ?_⟩
    have := hf.length_le
    simp at this
  | cons f fs ih =>
    have hf := h f List.mem_cons_self
    rw [List.flatten_cons] at hle
    have hfirst : f <+: f ++ fs.flatten := List.prefix_append f fs.flatten
    rcases Nat.lt_or_ge xs.length f.length with hlt | hge
    · have hpart : xs <+: f := List.prefix_of_prefix_length_le hle hfirst (Nat.le_of_lt hlt)
      rw [F.unframe_of_not_starts (F.not_starts_of_prefix hf hpart hlt)]
      refine ⟨List.nil_prefix, fun g hg => ?_⟩
      obtain rfl : g = f := by simpa using hg
      simpa using hlt
    · obtain ⟨ys, rfl⟩ := List.prefix_of_prefix_length_le hfirst hle hge
      rw [F.unframe_append hf]
      have hrest : ys <+: fs.flatten := (List.prefix_append_right_inj f).mp hle
      obtain ⟨hys, hnext⟩ := ih (fun g hg => h g (List.mem_cons_of_mem f hg)) hrest
      refine ⟨List.cons_prefix_cons.mpr ⟨rfl, hys⟩, fun g hg => ?_⟩
      have hlt := hnext g (List.cons_prefix_cons.mp hg).2
      simp only [List.cons_append, List.flatten_cons, List.length_append] at hlt ⊢
      omega

end FrameFormat

end Foundations
