import PristonTale.Foundations.Transition

set_option relaxedAutoImplicit false
set_option autoImplicit false

/-!
# First-in first-out channels with history

What a byte buffer between two parties is for, stated without the buffer: elements are pushed at
one end and popped at the other, and every element pushed is either popped already or still
queued, in the order it was pushed. The law is a field, so a channel that lost, duplicated or
reordered an element cannot be built; a buffer that refines a channel inherits it.

## Main definitions

* `Foundations.Channel` — a queue with the history of both its ends.
* `Foundations.Channel.push`, `Foundations.Channel.pop` — its two operations.
* `Foundations.Channel.Carries` — a step that pushes what an action brings, then pops something.

## Main results

* `Foundations.Channel.pop_pop` — popping in two parts is popping at once.
* `Foundations.Channel.pushed_of_steps` — after a run, what was pushed is what its actions brought.
-/

namespace Foundations

/-- A first-in first-out channel: what was pushed, what was popped, and the queue in between. -/
@[ext] structure Channel (α : Type*) where
  /-- Everything pushed so far, in order. -/
  pushed : List α
  /-- Everything popped so far, in order. -/
  popped : List α
  /-- What was pushed and not yet popped. -/
  queue : List α
  /-- Nothing is lost, duplicated or reordered. -/
  law : popped ++ queue = pushed

namespace Channel

variable {α : Type*}

/-- The channel nothing was pushed into. -/
def empty : Channel α := ⟨[], [], [], rfl⟩

/-- Push the elements of a list, in order. -/
def push (c : Channel α) (xs : List α) : Channel α where
  pushed := c.pushed ++ xs
  popped := c.popped
  queue := c.queue ++ xs
  law := by rw [← List.append_assoc, c.law]

/-- Pop the first `n` queued elements (all of them if there are fewer). -/
def pop (c : Channel α) (n : ℕ) : Channel α where
  pushed := c.pushed
  popped := c.popped ++ c.queue.take n
  queue := c.queue.drop n
  law := by rw [List.append_assoc, List.take_append_drop, c.law]

/-- Nothing was pushed to the empty channel. -/
@[simp] lemma empty_pushed : (empty : Channel α).pushed = [] := rfl

/-- Nothing was popped from it. -/
@[simp] lemma empty_popped : (empty : Channel α).popped = [] := rfl

/-- Nothing is in it. -/
@[simp] lemma empty_queue : (empty : Channel α).queue = [] := rfl

/-- Pushing appends to what was pushed. -/
@[simp] lemma push_pushed (c : Channel α) (xs : List α) :
    (c.push xs).pushed = c.pushed ++ xs := rfl

/-- Pushing pops nothing. -/
@[simp] lemma push_popped (c : Channel α) (xs : List α) : (c.push xs).popped = c.popped := rfl

/-- Pushing appends to what is queued. -/
@[simp] lemma push_queue (c : Channel α) (xs : List α) :
    (c.push xs).queue = c.queue ++ xs := rfl

/-- Popping pushes nothing. -/
@[simp] lemma pop_pushed (c : Channel α) (n : ℕ) : (c.pop n).pushed = c.pushed := rfl

/-- Popping moves the head of the queue to what was popped. -/
@[simp] lemma pop_popped (c : Channel α) (n : ℕ) :
    (c.pop n).popped = c.popped ++ c.queue.take n := rfl

/-- Popping leaves the rest of the queue. -/
@[simp] lemma pop_queue (c : Channel α) (n : ℕ) : (c.pop n).queue = c.queue.drop n := rfl

/-- Pushing nothing changes nothing. -/
@[simp] lemma push_nil (c : Channel α) : c.push [] = c := by
  ext1 <;> simp

/-- Popping nothing changes nothing. -/
@[simp] lemma pop_zero (c : Channel α) : c.pop 0 = c := by
  ext1 <;> simp

/-- Popping `m` and then `n` elements is popping `m + n`. -/
lemma pop_pop (c : Channel α) (m n : ℕ) : (c.pop m).pop n = c.pop (m + n) := by
  ext1
  · rfl
  · simp [List.take_add]
  · simp

/-- One step of a channel: push what the action brings, then pop some number of elements. -/
def Carries {β : Type*} (bring : β → List α) (c : Channel α) (a : β) (c' : Channel α) : Prop :=
  ∃ n, c' = (c.push (bring a)).pop n

/-- What a run has pushed is what its actions brought, in order. -/
lemma pushed_of_steps {β : Type*} {bring : β → List α} {as : List β} {c c' : Channel α}
    (h : Transition.Steps (Carries bring) c as c') :
    c'.pushed = c.pushed ++ as.flatMap bring := by
  induction as generalizing c with
  | nil =>
    obtain rfl : c = c' := h
    simp
  | cons a as ih =>
    obtain ⟨c₁, ⟨n, rfl⟩, hrest⟩ := h
    rw [ih hrest]
    simp [List.append_assoc]

end Channel

end Foundations
