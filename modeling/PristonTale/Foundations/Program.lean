import Mathlib.Data.List.Basic
import Mathlib.Tactic.Common

set_option relaxedAutoImplicit false
set_option autoImplicit false

/-!
# Programs with events

Programs that keep a state, emit events as they go, and either return a value or stop on the way
(an exception nobody catches, a fault). The events emitted before a stop have happened.

What a program does is read off two predicates, `Program.Returns` and membership in
`Program.events`; the rules below say what they are for each way of building a program, so that
unfolding a program and rewriting with them turns "can this event happen" into a statement about
the inputs.

## Main definitions

* `Foundations.Program` — programs; `pure`, `>>=`, `Foundations.Program.emit` and
  `Foundations.Program.stop` build them.
* `Foundations.Program.events`, `Foundations.Program.Returns` — what a program does.

## Main results

* `Foundations.Program.returns_bind`, `Foundations.Program.mem_events_bind` — a sequence returns
  what its second part returns after the first has, and emits what the first part emits and what
  the second emits if the first returns.
-/

namespace Foundations

/-- A program with events in `ε` and a state in `σ` that returns an `α` or stops with a `χ`. -/
structure Program (ε χ σ α : Type) where
  /-- From a state: the events, and what the program returns with the state then, or why it
  stopped. -/
  run : σ → List ε × Except χ (α × σ)

namespace Program

variable {ε χ σ α β : Type}

/-- The events of a program started in `s`. -/
def events (p : Program ε χ σ α) (s : σ) : List ε := (p.run s).1

/-- Started in `s`, the program returns `a` and leaves the state `t`. -/
def Returns (p : Program ε χ σ α) (s : σ) (a : α) (t : σ) : Prop := (p.run s).2 = .ok (a, t)

/-- Emit one event. -/
def emit (e : ε) : Program ε χ σ Unit := ⟨fun s => ([e], .ok ((), s))⟩

/-- Stop. -/
def stop (x : χ) : Program ε χ σ α := ⟨fun _ => ([], .error x)⟩

/-- Run `p`, then `f` on what it returned. -/
def andThen (p : Program ε χ σ α) (f : α → Program ε χ σ β) : Program ε χ σ β :=
  ⟨fun s =>
    match p.run s with
    | (es, .ok (a, t)) => (es ++ ((f a).run t).1, ((f a).run t).2)
    | (es, .error x) => (es, .error x)⟩

instance : Monad (Program ε χ σ) where
  pure a := ⟨fun s => ([], .ok (a, s))⟩
  bind := andThen

variable {s t : σ} {a : α} {b : β} {e : ε}

/-- A value has no events. -/
@[simp] lemma events_pure (a : α) (s : σ) :
    (pure a : Program ε χ σ α).events s = [] := rfl

/-- A value is returned at once. -/
@[simp] lemma returns_pure {a' : α} :
    (pure a : Program ε χ σ α).Returns s a' t ↔ a' = a ∧ t = s := by
  simp [Returns, pure, eq_comm]

/-- An event is emitted. -/
@[simp] lemma events_emit (e : ε) (s : σ) : (emit e : Program ε χ σ Unit).events s = [e] := rfl

/-- Emitting returns. -/
@[simp] lemma returns_emit {u : Unit} : (emit e : Program ε χ σ Unit).Returns s u t ↔ t = s := by
  simp [Returns, emit, eq_comm]

/-- Stopping has no events. -/
@[simp] lemma events_stop (x : χ) (s : σ) : (stop x : Program ε χ σ α).events s = [] := rfl

/-- Stopping does not return. -/
@[simp] lemma returns_stop (x : χ) : ¬ (stop x : Program ε χ σ α).Returns s a t := by
  simp [Returns, stop]

/-- A program returns at most one value. -/
lemma Returns.unique {p : Program ε χ σ α} {a' : α} {t' : σ} (h : p.Returns s a t)
    (h' : p.Returns s a' t') : a = a' ∧ t = t' := by
  have := h.symm.trans h'
  simpa using this

/-- A sequence that starts with a value goes on with it. -/
lemma pure_bind (a : α) (f : α → Program ε χ σ β) : (pure a >>= f : Program ε χ σ β) = f a := rfl

/-- A sequence that starts by stopping stops. -/
lemma stop_bind (x : χ) (f : α → Program ε χ σ β) :
    (stop x >>= f : Program ε χ σ β) = stop x := rfl

/-- Sequences are associative. -/
lemma bind_assoc {γ : Type} (p : Program ε χ σ α) (f : α → Program ε χ σ β)
    (g : β → Program ε χ σ γ) : p >>= f >>= g = p >>= fun a => f a >>= g := by
  have hrun : ∀ s, (p >>= f >>= g).run s = (p >>= fun a => f a >>= g).run s := by
    intro s
    rcases hp : p.run s with ⟨es, x | ⟨a, t⟩⟩
    · simp only [bind, andThen, hp]
    · rcases hf : (f a).run t with ⟨fs, x | r⟩
      · simp only [bind, andThen, hp, hf]
      · simp only [bind, andThen, hp, hf, List.append_assoc]
  exact congrArg mk (funext hrun)

/-- A sequence whose first part returns. -/
lemma run_bind_of_returns {p : Program ε χ σ α} (f : α → Program ε χ σ β)
    (h : p.Returns s a t) :
    (p >>= f).run s = (p.events s ++ (f a).events t, ((f a).run t).2) := by
  have hr : p.run s = (p.events s, .ok (a, t)) := Prod.ext rfl h
  simp only [bind, andThen, hr]
  rfl

/-- A sequence whose first part stops. -/
lemma run_bind_of_stops {p : Program ε χ σ α} (f : α → Program ε χ σ β)
    (h : ∀ a t, ¬ p.Returns s a t) : ∃ x, (p >>= f).run s = (p.events s, .error x) := by
  unfold Returns at h
  cases hr : (p.run s).2 with
  | error x =>
    have hx : p.run s = (p.events s, .error x) := Prod.ext rfl hr
    exact ⟨x, by simp only [bind, andThen, hx]⟩
  | ok r => exact absurd hr (h r.1 r.2)

/-- Two sequences with the same first part are alike if they go on alike from whatever it
returns. -/
lemma run_bind_congr {p : Program ε χ σ α} {f g : α → Program ε χ σ β}
    (h : ∀ a t, p.Returns s a t → (f a).run t = (g a).run t) :
    (p >>= f).run s = (p >>= g).run s := by
  rcases hp : p.run s with ⟨es, x | ⟨a, t⟩⟩
  · simp only [bind, andThen, hp]
  · have hgo := h a t (congrArg Prod.snd hp)
    simp only [bind, andThen, hp, hgo]

/-- **A sequence returns** what its second part returns after the first has returned. -/
@[simp] theorem returns_bind {p : Program ε χ σ α} {f : α → Program ε χ σ β} :
    (p >>= f).Returns s b t ↔ ∃ a u, p.Returns s a u ∧ (f a).Returns u b t := by
  constructor
  · intro h
    by_cases hp : ∃ a u, p.Returns s a u
    · obtain ⟨a, u, hp⟩ := hp
      refine ⟨a, u, hp, ?_⟩
      rw [Returns, run_bind_of_returns f hp] at h
      exact h
    · obtain ⟨x, hx⟩ := run_bind_of_stops f fun a u hau => hp ⟨a, u, hau⟩
      rw [Returns, hx] at h
      simp at h
  · rintro ⟨a, u, hp, hf⟩
    rw [Returns, run_bind_of_returns f hp]
    exact hf

/-- The events of a sequence whose first part returns. -/
lemma events_bind_of_returns {p : Program ε χ σ α} (f : α → Program ε χ σ β)
    (h : p.Returns s a t) : (p >>= f).events s = p.events s ++ (f a).events t := by
  rw [events, run_bind_of_returns f h]

/-- The events of a sequence whose first part stops. -/
lemma events_bind_of_stops {p : Program ε χ σ α} (f : α → Program ε χ σ β)
    (h : ∀ a t, ¬ p.Returns s a t) : (p >>= f).events s = p.events s := by
  obtain ⟨x, hx⟩ := run_bind_of_stops f h
  rw [events, hx]

/-- A sequence whose first part returns without events does what its second part does. -/
lemma run_bind_of_silent {p : Program ε χ σ α} (f : α → Program ε χ σ β)
    (hp : p.events s = []) (h : p.Returns s a t) : (p >>= f).run s = (f a).run t := by
  rw [run_bind_of_returns f h, hp, List.nil_append]
  rfl

/-- **A sequence emits** the events of its first part and, if that returns, those of the second. -/
@[simp] theorem mem_events_bind {p : Program ε χ σ α} {f : α → Program ε χ σ β} :
    e ∈ (p >>= f).events s ↔
      e ∈ p.events s ∨ ∃ a t, p.Returns s a t ∧ e ∈ (f a).events t := by
  by_cases hp : ∃ a u, p.Returns s a u
  · obtain ⟨a, u, hp⟩ := hp
    rw [events_bind_of_returns f hp, List.mem_append]
    refine or_congr_right ⟨fun h => ⟨a, u, hp, h⟩, ?_⟩
    rintro ⟨a', u', hp', h⟩
    obtain ⟨rfl, rfl⟩ := hp.unique hp'
    exact h
  · rw [events_bind_of_stops f fun a u hau => hp ⟨a, u, hau⟩]
    refine ⟨.inl, ?_⟩
    rintro (h | ⟨a, u, hau, -⟩)
    · exact h
    · exact absurd ⟨a, u, hau⟩ hp

/-- Up to a function of the events, two sequences with the same first part have the same events if
they go on with the same events from whatever it returns. -/
lemma map_events_bind_congr {ε' : Type} {h : ε → ε'} {p : Program ε χ σ α}
    {f g : α → Program ε χ σ β}
    (hfg : ∀ a t, p.Returns s a t → ((f a).events t).map h = ((g a).events t).map h) :
    ((p >>= f).events s).map h = ((p >>= g).events s).map h := by
  by_cases hp : ∃ a u, p.Returns s a u
  · obtain ⟨a, u, hp⟩ := hp
    rw [events_bind_of_returns f hp, events_bind_of_returns g hp, List.map_append, List.map_append,
      hfg a u hp]
  · have hstops : ∀ a u, ¬ p.Returns s a u := fun a u hau => hp ⟨a, u, hau⟩
    rw [events_bind_of_stops f hstops, events_bind_of_stops g hstops]

/-- The events of a branch. -/
@[simp] lemma mem_events_ite {c : Prop} [Decidable c] {p q : Program ε χ σ α} :
    e ∈ (if c then p else q).events s ↔ if c then e ∈ p.events s else e ∈ q.events s := by
  split_ifs <;> rfl

end Program

end Foundations
