import PristonTale.Foundations.Monitor
import PristonTale.Foundations.Transition

set_option relaxedAutoImplicit false
set_option autoImplicit false

/-!
# Methods that hold a mutex

Objects whose methods each hold a mutex from their first statement to their last, called by any
number of threads whose statements interleave. A proof outline says what holds before each statement
of a method, of the shared data where the mutex was taken and of what it is by then. From an outline
for one thread alone it follows that the calls might as well have run one after the other.

## Main definitions

* `Foundations.Methods` — the statements of the methods.
* `Foundations.Critical`, `Foundations.criticalSystem` — threads that call them.
* `Foundations.Outline` — a proof outline of each method, and what it says of a whole call.

## Main results

* `Foundations.Outline.atomic` — in every interleaving one thread at most is in a method, and the
  calls that have returned lead to the shared data one after the other.

## Implementation notes

* A statement may depend on what is outside of the shared data; that is given with each statement.
* A statement that is undefined has no next state.
-/

namespace Foundations

variable {σ α ε κ ρ : Type*}

/-- Methods on shared data: a call of `a` starts at `enter a`, and a statement goes on to another
one or returns. -/
structure Methods (σ α ε κ ρ : Type*) where
  /-- The first statement of a call. -/
  enter : α → κ
  /-- What a statement does, given what is outside. -/
  next : ε → σ → κ → Option (σ × (κ ⊕ ρ))

/-- Where a thread is. -/
inductive CallPoint (α κ : Type*) where
  /-- In no call. -/
  | outside
  /-- In a call, before it has the mutex. -/
  | waiting (a : α)
  /-- In a call, before the statement `k`. -/
  | inside (a : α) (k : κ)

/-- The thread is where it holds the mutex. -/
def CallPoint.Holds : CallPoint α κ → Prop
  | .inside _ _ => True
  | _ => False

/-- The call the thread is in. -/
def CallPoint.pending : CallPoint α κ → Option α
  | .outside => none
  | .waiting a | .inside a _ => some a

/-- Threads that call methods on shared data. -/
structure Critical (σ α κ ρ : Type*) where
  /-- The shared data. -/
  shared : σ
  /-- The thread that has the mutex. -/
  owner : Option ℕ
  /-- Where each thread is. -/
  points : List (CallPoint α κ)
  /-- The calls that have returned, and with what. No step reads it. -/
  returned : List (α × ρ)

/-- Threads that are in no call. -/
def Critical.start (s : σ) (threads : ℕ) : Critical σ α κ ρ :=
  ⟨s, none, .replicate threads .outside, []⟩

/-- What a thread does. -/
inductive CriticalAction (α ε : Type*) where
  /-- The thread `i` calls a method. -/
  | call (i : ℕ) (a : α)
  /-- It gets the mutex. -/
  | lock (i : ℕ)
  /-- It executes a statement. -/
  | statement (i : ℕ) (outside : ε)

/-- **Threads that call methods on shared data.** The mutex is free after the last statement. -/
def criticalSystem (M : Methods σ α ε κ ρ) :
    Transition (Critical σ α κ ρ) (CriticalAction α ε) where
  step st
    | .call i a =>
      match st.points[i]? with
      | some .outside => some { st with points := st.points.set i (.waiting a) }
      | _ => none
    | .lock i =>
      match st.owner, st.points[i]? with
      | none, some (.waiting a) =>
        some { st with owner := some i, points := st.points.set i (.inside a (M.enter a)) }
      | _, _ => none
    | .statement i outside =>
      match st.points[i]? with
      | some (.inside a k) =>
        match M.next outside st.shared k with
        | some (s, .inl k') =>
          some { st with shared := s, points := st.points.set i (.inside a k') }
        | some (s, .inr r) =>
          some ⟨s, none, st.points.set i .outside, st.returned ++ [(a, r)]⟩
        | none => none
      | _ => none

/-- A proof outline of methods that meet `spec`: the call, the shared data where it got the mutex,
its result and the shared data where it returns. -/
structure Outline (M : Methods σ α ε κ ρ) (spec : α → σ → ρ → σ → Prop) where
  /-- What holds before a statement of a call: of the shared data where it got the mutex, and of
  what it is by then. -/
  Before : α → κ → σ → σ → Prop
  /-- It holds before the first statement. -/
  enters : ∀ a s, Before a (M.enter a) s s
  /-- A statement leads from what holds before it to what holds before the next one. -/
  goesOn : ∀ {a k s₀ s e s' k'}, Before a k s₀ s → M.next e s k = some (s', .inl k') →
    Before a k' s₀ s'
  /-- A statement that returns does what the method is for. -/
  returns : ∀ {a k s₀ s e s' r}, Before a k s₀ s → M.next e s k = some (s', .inr r) →
    spec a s₀ r s'

variable {M : Methods σ α ε κ ρ} {spec : α → σ → ρ → σ → Prop}

/-! ## One step -/

/-- **All that a step can be.** -/
lemma criticalSystem_step_cases {st st' : Critical σ α κ ρ} {act : CriticalAction α ε}
    (h : (criticalSystem M).step st act = some st') :
    (∃ i a, act = .call i a ∧ st.points[i]? = some .outside ∧
      st' = { st with points := st.points.set i (.waiting a) }) ∨
    (∃ i a, act = .lock i ∧ st.owner = none ∧ st.points[i]? = some (.waiting a) ∧
      st' = { st with owner := some i, points := st.points.set i (.inside a (M.enter a)) }) ∨
    (∃ i e a k s k', act = .statement i e ∧ st.points[i]? = some (.inside a k) ∧
      M.next e st.shared k = some (s, .inl k') ∧
      st' = { st with shared := s, points := st.points.set i (.inside a k') }) ∨
    ∃ i e a k s r, act = .statement i e ∧ st.points[i]? = some (.inside a k) ∧
      M.next e st.shared k = some (s, .inr r) ∧
      st' = ⟨s, none, st.points.set i .outside, st.returned ++ [(a, r)]⟩ := by
  cases act with
  | call i a =>
    simp only [criticalSystem] at h
    split at h
    case h_1 hi => exact .inl ⟨i, a, rfl, hi, (Option.some.inj h).symm⟩
    case h_2 => cases h
  | lock i =>
    simp only [criticalSystem] at h
    split at h
    case h_1 a howner hi =>
      exact .inr (.inl ⟨i, a, rfl, howner, hi, (Option.some.inj h).symm⟩)
    case h_2 => cases h
  | statement i e =>
    simp only [criticalSystem] at h
    split at h
    case h_1 a k hi =>
      split at h
      case h_1 s k' hnext =>
        exact .inr (.inr (.inl ⟨i, e, a, k, s, k', rfl, hi, hnext, (Option.some.inj h).symm⟩))
      case h_2 s r hnext =>
        exact .inr (.inr (.inr ⟨i, e, a, k, s, r, rfl, hi, hnext, (Option.some.inj h).symm⟩))
      case h_3 => cases h
    case h_2 => cases h

/-- The calls that have returned, each a step of what the methods are for. -/
def Serial (spec : α → σ → ρ → σ → Prop) : σ → List (α × ρ) → σ → Prop :=
  Transition.Steps fun s c s' => spec c.1 s c.2 s'

/-- One more call. -/
lemma Serial.snoc {s₀ s s' : σ} {calls : List (α × ρ)} {a : α} {r : ρ}
    (h : Serial spec s₀ calls s) (hspec : spec a s r s') :
    Serial spec s₀ (calls ++ [(a, r)]) s' := by
  induction calls generalizing s₀ with
  | nil =>
    obtain rfl : s₀ = s := h
    exact ⟨s', hspec, rfl⟩
  | cons c calls ih =>
    obtain ⟨s₁, hfirst, hrest⟩ := h
    exact ⟨s₁, hfirst, ih hrest⟩

/-- What a thread asserts, of the shared data where the mutex was taken and of what it is now. -/
def CallPoint.Asserts (O : Outline M spec) : CallPoint α κ → σ × σ → Prop
  | .inside a k, d => O.Before a k d.1 d.2
  | _, _ => True

/-- **Atomic calls**: those that have returned lead from `s₀` to `s`, and that is the shared data
unless a thread is in a call; the thread is then where the outline says. -/
structure Critical.Atomic (O : Outline M spec) (s₀ s : σ) (st : Critical σ α κ ρ) : Prop where
  /-- One thread at most is in a call. -/
  exclusive : Exclusive CallPoint.Holds st.points st.owner
  /-- The calls that have returned. -/
  serial : Serial spec s₀ st.returned s
  /-- The shared data while no thread has the mutex. -/
  free : st.owner = none → s = st.shared
  /-- Each thread is where the outline says. -/
  asserted : Asserted (CallPoint.Asserts O) st.points (s, st.shared)

/-- A thread that does not hold the mutex asserts nothing. -/
lemma CallPoint.asserts_of_not_holds (O : Outline M spec) (p : CallPoint α κ) (d : σ × σ)
    (h : ¬ p.Holds) : p.Asserts O d := by
  cases p with
  | inside a k => exact absurd trivial h
  | outside | waiting => trivial

/-- Threads that are in no call. -/
lemma Critical.atomic_start (O : Outline M spec) (s : σ) (threads : ℕ) :
    (Critical.start s threads).Atomic O s s := by
  have hexclusive : Exclusive CallPoint.Holds
      (List.replicate threads (CallPoint.outside : CallPoint α κ)) none := by
    refine ⟨fun i p hp => ?_, nofun⟩
    rw [List.eq_of_mem_replicate (List.mem_of_getElem? hp)]
    exact iff_of_false id nofun
  exact ⟨hexclusive, rfl, fun _ => rfl,
    .of_unowned (CallPoint.asserts_of_not_holds O) hexclusive (s, s)⟩

/-- **Each step keeps calls atomic.**

**Proof sketch.** A statement is one of the thread that holds the mutex, so no other thread asserts
anything of the shared data. Where the method returns, what it is for leads from the shared data
where it got the mutex to what it is now. -/
theorem Critical.Atomic.step {O : Outline M spec} {s₀ s : σ} {st st' : Critical σ α κ ρ}
    {act : CriticalAction α ε} (h : st.Atomic O s₀ s)
    (hstep : (criticalSystem M).step st act = some st') : ∃ s', st'.Atomic O s₀ s' := by
  have hnothing := CallPoint.asserts_of_not_holds O
  rcases criticalSystem_step_cases hstep with
    ⟨i, a, -, hi, rfl⟩ | ⟨i, a, -, hfree, hi, rfl⟩ |
    ⟨i, e, a, k, s', k', -, hi, hnext, rfl⟩ | ⟨i, e, a, k, s', r, -, hi, hnext, rfl⟩
  · exact ⟨s, h.exclusive.keep hi Iff.rfl, h.serial, h.free, h.asserted.set trivial⟩
  · have hexclusive := h.exclusive
    rw [hfree] at hexclusive
    obtain rfl := h.free hfree
    refine ⟨st.shared, hexclusive.acquire hi trivial, h.serial, nofun, ?_⟩
    exact h.asserted.set (O.enters a st.shared)
  · have hbefore : O.Before a k s st.shared := h.asserted i _ hi
    have howner : st.owner = some i := (h.exclusive.holds_iff i _ hi).mp trivial
    refine ⟨s, h.exclusive.keep hi Iff.rfl, h.serial, fun hnone => ?_, ?_⟩
    · rw [howner] at hnone
      cases hnone
    · exact .by_owner hnothing h.exclusive hi trivial (O.goesOn hbefore hnext)
  · have hbefore : O.Before a k s st.shared := h.asserted i _ hi
    have hexclusive : Exclusive CallPoint.Holds (st.points.set i .outside) none :=
      h.exclusive.release hi trivial id
    exact ⟨s', hexclusive, h.serial.snoc (O.returns hbefore hnext), fun _ => rfl,
      .of_unowned hnothing hexclusive _⟩

/-! ## Runs -/

/-- **Calls that hold a mutex are atomic.** However the statements of any number of threads
interleave, one thread at most is in a method, and the calls that have returned do one after the
other what the methods are for. They lead to the shared data where the mutex is free, and to the
shared data where it was taken otherwise. -/
theorem Outline.atomic (O : Outline M spec) {s₀ : σ} {threads : ℕ}
    {acts : List (CriticalAction α ε)} {st : Critical σ α κ ρ}
    (hrun : (criticalSystem M).run (.start s₀ threads) acts = some st) :
    ∃ s, st.Atomic O s₀ s := by
  refine (criticalSystem M).run_invariant (I := fun st => ∃ s, st.Atomic O s₀ s) ?_ hrun
    ⟨s₀, Critical.atomic_start O s₀ threads⟩
  rintro st act st' ⟨s, hs⟩ hstep
  exact hs.step hstep

end Foundations
