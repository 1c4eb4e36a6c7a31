import Mathlib.Data.List.Basic
import Mathlib.Tactic.Common

set_option relaxedAutoImplicit false
set_option autoImplicit false

/-!
# Reading values from a text

Programs that read values one after the other from a text with a cursor. A reader takes a state
that has the text and the cursor to a value, or throws, and leaves a state. It reads a text back as
a value if, wherever that text is what comes next, it returns the value and has moved the cursor
past the text, whatever follows. That is kept by running readers one after the other, which reduces
the round trip of a list of values to that of each of them.

## Main definitions

* `Foundations.Reader` — programs that read.
* `Foundations.Input` — states with a text and a cursor.
* `Foundations.Input.ReadsBack` — a reader reads a text back as a value.

## Main results

* `Foundations.Input.ReadsBack.bind`, `Foundations.Input.ReadsBack.mapM` — one reader after the
  other, and the readers of a list.
-/

namespace Foundations

variable {σ α β γ δ : Type}

/-- A program that reads from a state: its value, unless it throws, and the state it leaves. -/
abbrev Reader (σ α : Type) := OptionT (StateM σ) α

/-- What a reader returns from a state, and the state it leaves. -/
def Reader.result (r : Reader σ α) (s : σ) : Option α × σ := r.run.run s

/-- A value is returned and reads nothing. -/
@[simp] lemma Reader.result_pure (a : α) (s : σ) :
    Reader.result (pure a : Reader σ α) s = (some a, s) := rfl

/-- The state is returned. -/
@[simp] lemma Reader.result_get (s : σ) : Reader.result (get : Reader σ σ) s = (some s, s) := rfl

/-- A reader after one that has returned. -/
lemma Reader.result_bind {r : Reader σ α} {k : α → Reader σ γ} {s s' : σ} {a : α}
    (h : r.result s = (some a, s')) : Reader.result (r >>= k) s = (k a).result s' := by
  have h' : r.run.run s = (some a, s') := h
  simp only [Reader.result, OptionT.run_bind, Option.elimM, StateT.run_bind, h']
  rfl

/-- After a reader that has failed, nothing is read. -/
lemma Reader.result_bind_of_none {r : Reader σ α} {k : α → Reader σ γ} {s s' : σ}
    (h : r.result s = (none, s')) : Reader.result (r >>= k) s = (none, s') := by
  have h' : r.run.run s = (none, s') := h
  simp only [Reader.result, OptionT.run_bind, Option.elimM, StateT.run_bind, h']
  rfl

/-- Computing with what a reader returns. -/
lemma Reader.result_map (f : α → γ) (r : Reader σ α) (s : σ) :
    (f <$> r).result s = ((r.result s).1.map f, (r.result s).2) := by
  simp only [Reader.result, OptionT.run_map, StateT.run_map]
  rfl

/-- States that have a text and a cursor in it. -/
structure Input (σ β : Type) where
  /-- The states in which the cursor is in the text. -/
  Valid : σ → Prop
  /-- The text from the cursor on. -/
  remaining : σ → List β
  /-- The state after the cursor has moved. -/
  advance : σ → ℕ → σ
  /-- The cursor stays in the text if it does not move past its end. -/
  valid_advance : ∀ {s : σ} {n : ℕ}, Valid s → n ≤ (remaining s).length → Valid (advance s n)
  /-- What the cursor has moved over no longer remains. -/
  remaining_advance : ∀ {s : σ} {n : ℕ}, Valid s → n ≤ (remaining s).length →
    remaining (advance s n) = (remaining s).drop n
  /-- Not moving changes nothing. -/
  advance_zero : ∀ s : σ, advance s 0 = s
  /-- Two moves are one. -/
  advance_advance : ∀ (s : σ) (m n : ℕ), advance (advance s m) n = advance s (m + n)

namespace Input

variable (I : Input σ β)

/-- The reader reads `text` back as `a`: wherever `text` comes next, it returns `a` and leaves the
cursor behind `text`. -/
def ReadsBack (r : Reader σ α) (a : α) (text : List β) : Prop :=
  ∀ (s : σ) (rest : List β), I.Valid s → I.remaining s = text ++ rest →
    r.result s = (some a, I.advance s text.length)

variable {I}

/-- After a text that was next, what follows it is next. -/
lemma remaining_advance_append {s : σ} {text rest : List β} (hs : I.Valid s)
    (h : I.remaining s = text ++ rest) :
    I.Valid (I.advance s text.length) ∧ I.remaining (I.advance s text.length) = rest := by
  have hle : text.length ≤ (I.remaining s).length := by
    rw [h, List.length_append]
    exact Nat.le_add_right _ _
  refine ⟨I.valid_advance hs hle, ?_⟩
  rw [I.remaining_advance hs hle, h, List.drop_left]

namespace ReadsBack

/-- Returning a value reads back the empty text. -/
lemma pure (a : α) : I.ReadsBack (Pure.pure a : Reader σ α) a [] := by
  intro s rest _ _
  rw [Reader.result_pure, List.length_nil, I.advance_zero]

/-- A reader after the other reads back one text after the other. -/
lemma bind {r : Reader σ α} {k : α → Reader σ γ} {a : α} {c : γ} {text text' : List β}
    (h : I.ReadsBack r a text) (hk : I.ReadsBack (k a) c text') :
    I.ReadsBack (r >>= k) c (text ++ text') := by
  intro s rest hs hrem
  rw [List.append_assoc] at hrem
  obtain ⟨hs', hrem'⟩ := remaining_advance_append hs hrem
  rw [Reader.result_bind (h s _ hs hrem), hk _ _ hs' hrem', I.advance_advance, List.length_append]

/-- Computing with the value that was read leaves the text the same. -/
lemma map (f : α → γ) {r : Reader σ α} {a : α} {text : List β} (h : I.ReadsBack r a text) :
    I.ReadsBack (f <$> r) (f a) text := by
  rw [← bind_pure_comp, ← List.append_nil text]
  exact h.bind (k := fun x => Pure.pure (f x)) (ReadsBack.pure (f a))

/-- **The readers of a list** read back the list of the values from their texts in a row, if each
reads back its own.

**Proof sketch.** Induction on the list. The first reader leaves the cursor behind its text, where
the other readers find theirs (`ReadsBack.bind`). -/
theorem mapM {read : δ → Reader σ α} {value : δ → α} {text : δ → List β} {ds : List δ}
    (h : ∀ d ∈ ds, I.ReadsBack (read d) (value d) (text d)) :
    I.ReadsBack (ds.mapM read) (ds.map value) (ds.flatMap text) := by
  induction ds with
  | nil => exact ReadsBack.pure []
  | cons d ds ih =>
    rw [List.mapM_cons, List.map_cons, List.flatMap_cons]
    have hd : I.ReadsBack (read d) (value d) (text d) := h d List.mem_cons_self
    have hds := ih fun d' hd' => h d' (List.mem_cons_of_mem _ hd')
    refine hd.bind ?_
    rw [bind_pure_comp]
    exact hds.map (value d :: ·)

end ReadsBack

end Input

end Foundations
