import Mathlib.Data.List.Basic
import Mathlib.Tactic.Common

set_option relaxedAutoImplicit false
set_option autoImplicit false

/-!
# Guarded transition systems

A transition system given by a partial step function: `step s a = some s'` when the action `a`
is enabled in the state `s` and leads to `s'`, and `step s a = none` when it is not enabled. A
run is a list of actions, each enabled where it is taken.

Properties of runs come in two kinds: `Always P` asks `P` of every state a run passes, and
`Along C` asks `C` of every step it takes (the state before the step and the action). The rules
below derive the first from what one step preserves, possibly only under the second.

## Main definitions

* `Foundations.Transition` — a partial step function; `Foundations.Transition.run` — its runs.
* `Foundations.Transition.Always`, `Foundations.Transition.Along` — a property of every state, and
  of every step, of a run.
* `Foundations.Transition.peak` — the largest value of a measure in a run.

## Main results

* `Foundations.Transition.run_invariant` — what each step preserves, a run preserves;
  `Foundations.Transition.run_invariant_along` — the same for the steps that meet a condition.
* `Foundations.Transition.always_iff_along` — a property that a step keeps exactly when it meets
  a condition holds throughout a run exactly when every step of the run meets it.
* `Foundations.Transition.along_congr` — conditions that agree on every step agree on every run;
  `Foundations.Transition.along_iff_along` — the same where a run may end in a step that is not
  enabled.
* `Foundations.Transition.along_iff_prefix` — a condition on every step is one on every first part
  of the list of actions.
* `Foundations.Transition.run_peak` — what each step does to a measure's largest value so far, a run
  does to the largest value it reaches.
* `Foundations.Transition.run_length_le` — a run whose steps all lower a measure is no longer than
  the measure.
* `Foundations.Transition.run_countP_le` — a run has no more actions of a kind that lowers a measure
  than the measure.
* `Foundations.Transition.exists_run_of_progress` — where an enabled action always lowers a measure,
  a run reaches the goal.
* `Foundations.Transition.run_simulates` — a run whose steps are each matched by an abstract step
  is matched by an abstract run; `Foundations.Transition.run_simulates_run` — the same where each
  step is matched by a run.
-/

namespace Foundations

/-- A transition system with a partial step function. -/
structure Transition (σ α : Type*) where
  /-- The state after action `a` in state `s`, if `a` is enabled there. -/
  step : σ → α → Option σ

namespace Transition

variable {σ α : Type*} (T : Transition σ α)

/-- The state after the actions of a list, taken in order, if each is enabled. -/
def run : σ → List α → Option σ
  | s, [] => some s
  | s, a :: as => (T.step s a).bind fun s' => run s' as

/-- `C` holds of every step of the run: of the state before it and of its action. -/
def Along (C : σ → α → Prop) : σ → List α → Prop
  | _, [] => True
  | s, a :: as => C s a ∧ ∀ s', T.step s a = some s' → Along C s' as

/-- `P` holds of every state the run passes, the first and the last included. -/
def Always (P : σ → Prop) : σ → List α → Prop
  | s, [] => P s
  | s, a :: as => P s ∧ ∀ s', T.step s a = some s' → Always P s' as

/-- A run that was found to succeed, in a state that was found to have a property. -/
lemma exists_run_of_any (P : σ → Prop) [DecidablePred P] (s : σ) (as : List α)
    (h : (T.run s as).any (fun t => P t) = true) : ∃ t, T.run s as = some t ∧ P t := by
  obtain ⟨t, hrun, ht⟩ := (Option.any_eq_true _ _).mp h
  exact ⟨t, hrun, of_decide_eq_true ht⟩

/-- The empty run stays where it is. -/
@[simp] lemma run_nil (s : σ) : T.run s [] = some s := rfl

/-- A run that succeeds takes its first step and goes on from there. -/
lemma run_cons_eq_some {s t : σ} {a : α} {as : List α} :
    T.run s (a :: as) = some t ↔ ∃ s', T.step s a = some s' ∧ T.run s' as = some t := by
  simp [run, Option.bind_eq_some_iff]

/-- A run through a first step known to succeed. -/
lemma run_cons_of_step {s s' : σ} {a : α} (as : List α) (h : T.step s a = some s') :
    T.run s (a :: as) = T.run s' as := by
  simp [run, h]

/-- **The invariant rule.** What every step preserves, a run preserves. -/
theorem run_invariant {I : σ → Prop} (hstep : ∀ s a s', I s → T.step s a = some s' → I s')
    {as : List α} {s t : σ} (h : T.run s as = some t) (hs : I s) : I t := by
  induction as generalizing s with
  | nil =>
    obtain rfl : s = t := by simpa using h
    exact hs
  | cons a as ih =>
    obtain ⟨s', h₁, h₂⟩ := (T.run_cons_eq_some).mp h
    exact ih h₂ (hstep s a s' hs h₁)

/-- Where every action is enabled in every state, every list of actions is a run. -/
lemma exists_run (htotal : ∀ s a, ∃ s', T.step s a = some s') (s : σ) (as : List α) :
    ∃ t, T.run s as = some t := by
  induction as generalizing s with
  | nil => exact ⟨s, rfl⟩
  | cons a as ih =>
    obtain ⟨s', hstep⟩ := htotal s a
    obtain ⟨t, hrun⟩ := ih s'
    exact ⟨t, by rw [T.run_cons_of_step as hstep, hrun]⟩

/-- **The exact rule.** Under an invariant `I` that every step preserves, let a step from a state
with `P` lead to a state with `P` exactly when it meets `C`. Then a run from a state with `P`
passes only states with `P` exactly when all its steps meet `C`.

**Proof sketch.** Induction on the run. The first step keeps `P` iff it meets `C`; if it does,
the rest of the run starts in a state with `I` and `P` again. -/
theorem always_iff_along {I P : σ → Prop} {C : σ → α → Prop}
    (hI : ∀ s a s', I s → T.step s a = some s' → I s')
    (hP : ∀ s a s', I s → P s → T.step s a = some s' → (P s' ↔ C s a))
    {as : List α} {s t : σ} (h : T.run s as = some t) (his : I s) (hs : P s) :
    T.Always P s as ↔ T.Along C s as := by
  induction as generalizing s with
  | nil => simp [Always, Along, hs]
  | cons a as ih =>
    obtain ⟨s', h₁, h₂⟩ := (T.run_cons_eq_some).mp h
    have his' := hI s a s' his h₁
    have hfirst : T.Always P s' as → P s' := by
      intro hall
      cases as with
      | nil => exact hall
      | cons b bs => exact hall.1
    simp only [Always, Along, h₁, Option.some.injEq, forall_eq', hs, true_and]
    constructor
    · intro hall
      have hs' := hfirst hall
      exact ⟨(hP s a s' his hs h₁).mp hs', (ih h₂ his' hs').mp hall⟩
    · rintro ⟨hC, hrest⟩
      have hs' := (hP s a s' his hs h₁).mpr hC
      exact (ih h₂ his' hs').mpr hrest

/-- Every step meets the condition that is always met. -/
lemma along_true (s : σ) (as : List α) : T.Along (fun _ _ => True) s as := by
  induction as generalizing s with
  | nil => trivial
  | cons a as ih => exact ⟨trivial, fun s' _ => ih s'⟩

/-- The steps along a list of actions, after a first step known to succeed. -/
lemma along_cons_of_step {C : σ → α → Prop} {s s' : σ} {a : α} (as : List α)
    (h : T.step s a = some s') : T.Along C s (a :: as) ↔ C s a ∧ T.Along C s' as := by
  simp [Along, h]

/-- The last step is the one that is not enabled. -/
lemma along_cons_of_none {C : σ → α → Prop} {s : σ} {a : α} (as : List α)
    (h : T.step s a = none) : T.Along C s (a :: as) ↔ C s a := by
  simp [Along, h]

/-- A condition that can be decided for a step can be decided along a list of actions. -/
instance decidableAlong (C : σ → α → Prop) [∀ s a, Decidable (C s a)] :
    ∀ (as : List α) (s : σ), Decidable (T.Along C s as)
  | [], _ => isTrue trivial
  | a :: as, s =>
    match h : T.step s a with
    | some s' =>
      have : Decidable (T.Along C s' as) := decidableAlong C as s'
      decidable_of_iff (C s a ∧ T.Along C s' as) (T.along_cons_of_step as h).symm
    | none => decidable_of_iff (C s a) (T.along_cons_of_none as h).symm

/-- **The congruence rule.** Under an invariant `I` and while every step meets `D`, two conditions
that agree on every step agree on the run. -/
theorem along_congr {I : σ → Prop} {D C C' : σ → α → Prop}
    (hI : ∀ s a s', I s → T.step s a = some s' → I s')
    (hC : ∀ s a s', I s → D s a → T.step s a = some s' → (C s a ↔ C' s a))
    {as : List α} {s t : σ} (h : T.run s as = some t) (hs : I s) (hD : T.Along D s as) :
    T.Along C s as ↔ T.Along C' s as := by
  induction as generalizing s with
  | nil => exact Iff.rfl
  | cons a as ih =>
    obtain ⟨s', h₁, h₂⟩ := (T.run_cons_eq_some).mp h
    have hrest := ih h₂ (hI s a s' hs h₁) (hD.2 s' h₁)
    simp only [Along, h₁, Option.some.injEq, forall_eq', hC s a s' hs hD.1 h₁, hrest]

/-- **The congruence rule for every step asked for.** Let two conditions agree in every state with
`I`, and let a step that meets them lead from `I` to `I`. Then they agree along a list of actions,
also when one of them is not enabled and ends the run. -/
theorem along_iff_along {I : σ → Prop} {C C' : σ → α → Prop}
    (hI : ∀ s a s', I s → C s a → T.step s a = some s' → I s')
    (hC : ∀ s a, I s → (C s a ↔ C' s a)) {s : σ} (hs : I s) (as : List α) :
    T.Along C s as ↔ T.Along C' s as := by
  induction as generalizing s with
  | nil => exact Iff.rfl
  | cons a as ih =>
    rw [Along, Along, ← hC s a hs]
    refine and_congr_right fun hfirst => forall_congr' fun s' => ?_
    exact forall_congr' fun h => ih (hI s a s' hs hfirst h)

/-- **The prefix rule.** A condition holds along a list of actions exactly when it holds of each
action in the state that the actions before it lead to. -/
theorem along_iff_prefix {C : σ → α → Prop} {s : σ} {as : List α} : T.Along C s as ↔
    ∀ pre a post t, as = pre ++ a :: post → T.run s pre = some t → C t a := by
  induction as generalizing s with
  | nil => simp [Along]
  | cons b bs ih =>
    rw [Along]
    constructor
    · rintro ⟨hfirst, hrest⟩ pre a post t heq hrun
      cases pre with
      | nil =>
        obtain ⟨rfl, -⟩ := List.cons.inj heq
        obtain rfl : s = t := by simpa using hrun
        exact hfirst
      | cons c pre =>
        obtain ⟨rfl, heq'⟩ := List.cons.inj heq
        obtain ⟨s', hstep, hrun'⟩ := (T.run_cons_eq_some).mp hrun
        exact ih.mp (hrest s' hstep) pre a post t heq' hrun'
    · intro hall
      refine ⟨hall [] b bs s rfl rfl, ?_⟩
      intro s' hstep
      refine ih.mpr fun pre a post t heq hrun => ?_
      exact hall (b :: pre) a post t (by rw [heq]; rfl)
        ((T.run_cons_eq_some).mpr ⟨s', hstep, hrun⟩)

/-- A run passes a state after each of its first parts. -/
lemma exists_of_run_append {s t : σ} {as bs : List α} (h : T.run s (as ++ bs) = some t) :
    ∃ s', T.run s as = some s' ∧ T.run s' bs = some t := by
  induction as generalizing s with
  | nil => exact ⟨s, rfl, h⟩
  | cons a as ih =>
    obtain ⟨s₁, hstep, hrest⟩ := (T.run_cons_eq_some).mp h
    obtain ⟨s', hrun, hrun'⟩ := ih hrest
    exact ⟨s', (T.run_cons_eq_some).mpr ⟨s₁, hstep, hrun⟩, hrun'⟩

/-- A run goes on with another one from where it ends. -/
lemma run_append {s s' : σ} {as : List α} (bs : List α) (h : T.run s as = some s') :
    T.run s (as ++ bs) = T.run s' bs := by
  induction as generalizing s with
  | nil =>
    obtain rfl : s = s' := by simpa using h
    rfl
  | cons a as ih =>
    obtain ⟨s₁, hstep, hrest⟩ := (T.run_cons_eq_some).mp h
    rw [List.cons_append, T.run_cons_of_step _ hstep]
    exact ih hrest

/-- The steps of a run, and of the one it goes on with. -/
lemma along_append {C : σ → α → Prop} {s s' : σ} {as : List α} (bs : List α)
    (h : T.run s as = some s') :
    T.Along C s (as ++ bs) ↔ T.Along C s as ∧ T.Along C s' bs := by
  induction as generalizing s with
  | nil =>
    obtain rfl : s = s' := by simpa using h
    exact (and_iff_right trivial).symm
  | cons a as ih =>
    obtain ⟨s₁, hstep, hrest⟩ := (T.run_cons_eq_some).mp h
    rw [List.cons_append, T.along_cons_of_step _ hstep, T.along_cons_of_step _ hstep, ih hrest,
      and_assoc]

/-- A condition that follows from another one, step by step, follows along the list. -/
lemma Along.imp {C C' : σ → α → Prop} (hC : ∀ s a, C s a → C' s a) {s : σ} {as : List α}
    (h : T.Along C s as) : T.Along C' s as := by
  induction as generalizing s with
  | nil => trivial
  | cons a as ih => exact ⟨hC s a h.1, fun s' hstep => ih (h.2 s' hstep)⟩

/-- A condition that holds of each action of a list, in any state, holds along the list. -/
lemma along_of_forall {C : σ → α → Prop} {as : List α} (h : ∀ a ∈ as, ∀ s, C s a) (s : σ) :
    T.Along C s as := by
  induction as generalizing s with
  | nil => trivial
  | cons a as ih =>
    refine ⟨h a List.mem_cons_self s, fun s' _ => ?_⟩
    exact ih (fun b hb => h b (List.mem_cons_of_mem a hb)) s'

/-- **The invariant rule under a condition.** What every step that meets `C` preserves, a run whose
steps all meet `C` preserves. -/
theorem run_invariant_along {I : σ → Prop} {C : σ → α → Prop}
    (hstep : ∀ s a s', I s → C s a → T.step s a = some s' → I s') {as : List α} {s t : σ}
    (h : T.run s as = some t) (hC : T.Along C s as) (hs : I s) : I t := by
  induction as generalizing s with
  | nil =>
    obtain rfl : s = t := by simpa using h
    exact hs
  | cons a as ih =>
    obtain ⟨s', h₁, h₂⟩ := (T.run_cons_eq_some).mp h
    exact ih h₂ (hC.2 s' h₁) (hstep s a s' hs hC.1 h₁)

/-- **The termination rule.** Under an invariant `I`, let every step that meets `C` lead to a
smaller measure. Then a run whose steps all meet `C` is no longer than the measure at its start,
less the one at its end. -/
theorem run_length_le {I : σ → Prop} {C : σ → α → Prop} {m : σ → ℕ}
    (hstep : ∀ s a s', I s → C s a → T.step s a = some s' → I s' ∧ m s' < m s)
    {as : List α} {s t : σ} (h : T.run s as = some t) (hC : T.Along C s as) (hs : I s) :
    I t ∧ as.length + m t ≤ m s := by
  induction as generalizing s with
  | nil =>
    obtain rfl : s = t := by simpa using h
    exact ⟨hs, by simp⟩
  | cons a as ih =>
    obtain ⟨s', h₁, h₂⟩ := (T.run_cons_eq_some).mp h
    obtain ⟨hs', hlt⟩ := hstep s a s' hs hC.1 h₁
    obtain ⟨ht, hle⟩ := ih h₂ (hC.2 s' h₁) hs'
    refine ⟨ht, ?_⟩
    rw [List.length_cons]
    omega

/-- **The counting rule.** Under an invariant `I` that every step preserves, let each step with an
action of `p` lead to a smaller measure, and no other step to a larger one. Then a run has no more
actions of `p` than the measure at its start, less the one at its end. -/
theorem run_countP_le {I : σ → Prop} {p : α → Bool} {m : σ → ℕ}
    (hI : ∀ s a s', I s → T.step s a = some s' → I s')
    (hstep : ∀ s a s', I s → T.step s a = some s' → (if p a then 1 else 0) + m s' ≤ m s)
    {as : List α} {s t : σ} (h : T.run s as = some t) (hs : I s) :
    as.countP p + m t ≤ m s := by
  induction as generalizing s with
  | nil =>
    obtain rfl : s = t := by simpa using h
    simp
  | cons a as ih =>
    obtain ⟨s', h₁, h₂⟩ := (T.run_cons_eq_some).mp h
    have hrest := ih h₂ (hI s a s' hs h₁)
    have hfirst := hstep s a s' hs h₁
    rw [List.countP_cons]
    omega

/-- **The progress rule.** In every state with `I` and without `G` let an action of `A` be enabled
that leads to a state with `I` and a smaller measure. Then from every state with `I` a run of
actions of `A` reaches `G`.

**Proof sketch.** Induction on the measure. -/
theorem exists_run_of_progress {I G : σ → Prop} {A : α → Prop} {m : σ → ℕ}
    (hprogress : ∀ s, I s → ¬ G s → ∃ a s', A a ∧ T.step s a = some s' ∧ I s' ∧ m s' < m s)
    {s : σ} (hs : I s) : ∃ as t, (∀ a ∈ as, A a) ∧ T.run s as = some t ∧ G t := by
  induction hm : m s using Nat.strongRecOn generalizing s with
  | ind n ih =>
    by_cases hG : G s
    · exact ⟨[], s, fun a ha => absurd ha List.not_mem_nil, rfl, hG⟩
    · obtain ⟨a, s', ha, hstep, hs', hlt⟩ := hprogress s hs hG
      obtain ⟨as, t, has, hrun, ht⟩ := ih (m s') (hm ▸ hlt) hs' rfl
      refine ⟨a :: as, t, fun b hb => ?_, by rw [T.run_cons_of_step as hstep, hrun], ht⟩
      rcases List.mem_cons.mp hb with rfl | hb
      · exact ha
      · exact has b hb

/-- The largest value of the measure `f` in the states a run passes. -/
def peak (f : σ → ℕ) : σ → List α → ℕ
  | s, [] => f s
  | s, a :: as => max (f s) (match T.step s a with
    | some s' => peak f s' as
    | none => 0)

/-- The first state counts. -/
lemma le_peak (f : σ → ℕ) (s : σ) (as : List α) : f s ≤ T.peak f s as := by
  cases as with
  | nil => exact Nat.le_refl _
  | cons a as => exact Nat.le_max_left _ _

/-- **The peak rule.** Let `R s m` relate a state to the largest value of the measure `f` so far,
and let a step lead to a state that is related to the largest value then. Then a run leads to a
state that is related to the largest value it reaches. -/
theorem run_peak {f : σ → ℕ} {R : σ → ℕ → Prop}
    (hstep : ∀ s a s' m, R s m → T.step s a = some s' → R s' (max m (f s')))
    {as : List α} {s t : σ} {m : ℕ} (h : T.run s as = some t) (hs : R s m) (hm : f s ≤ m) :
    R t (max m (T.peak f s as)) := by
  induction as generalizing s m with
  | nil =>
    obtain rfl : s = t := by simpa using h
    rwa [peak, Nat.max_eq_left hm]
  | cons a as ih =>
    obtain ⟨s', h₁, h₂⟩ := (T.run_cons_eq_some).mp h
    have hpeak := T.le_peak f s' as
    have hrest := ih h₂ (hstep s a s' m hs h₁) (Nat.le_max_right _ _)
    have hmax : max (max m (f s')) (T.peak f s' as) = max m (T.peak f s (a :: as)) := by
      simp only [peak, h₁]
      omega
    rwa [hmax] at hrest

section Simulation

variable {τ : Type*}

/-- The runs of an abstract step relation: one step for each action of the list. -/
def Steps (abs : τ → α → τ → Prop) : τ → List α → τ → Prop
  | c, [], c' => c = c'
  | c, a :: as, c' => ∃ c₁, abs c a c₁ ∧ Steps abs c₁ as c'

/-- **The simulation rule.** If every step that meets `C` from a state related to `c` is matched
by an abstract step from `c` to something related again, a run whose steps all meet `C` is matched
by an abstract run. -/
theorem run_simulates {R : σ → τ → Prop} {C : σ → α → Prop} {abs : τ → α → τ → Prop}
    (hstep : ∀ s a s' c, R s c → C s a → T.step s a = some s' → ∃ c', abs c a c' ∧ R s' c')
    {as : List α} {s t : σ} {c : τ} (h : T.run s as = some t) (hC : T.Along C s as)
    (hR : R s c) : ∃ c', Steps abs c as c' ∧ R t c' := by
  induction as generalizing s c with
  | nil =>
    obtain rfl : s = t := by simpa using h
    exact ⟨c, rfl, hR⟩
  | cons a as ih =>
    obtain ⟨s', h₁, h₂⟩ := (T.run_cons_eq_some).mp h
    obtain ⟨c₁, habs, hR₁⟩ := hstep s a s' c hR hC.1 h₁
    obtain ⟨c', hsteps, hR'⟩ := ih h₂ (hC.2 s' h₁) hR₁
    exact ⟨c', ⟨c₁, habs, hsteps⟩, hR'⟩

variable {β : Type*}

/-- The abstract actions of a run, when the step with the action `a` in the state `s` is matched by
the abstract actions `image s a`. -/
def trace (image : σ → α → List β) : σ → List α → List β
  | _, [] => []
  | s, a :: as => image s a ++ match T.step s a with
    | some s' => trace image s' as
    | none => []

/-- The abstract actions of a run, those of its first step first. -/
lemma trace_cons_of_step {image : σ → α → List β} {s s' : σ} {a : α} (as : List α)
    (h : T.step s a = some s') : T.trace image s (a :: as) = image s a ++ T.trace image s' as := by
  simp only [trace, h]

/-- **The stuttering simulation rule.** If every step from a state related to `u` is matched by a
run of an abstract system from `u` to something related again, a run is matched by a run. -/
theorem run_simulates_run (U : Transition τ β) {R : σ → τ → Prop} {image : σ → α → List β}
    (hstep : ∀ s a s' u, R s u → T.step s a = some s' →
      ∃ u', U.run u (image s a) = some u' ∧ R s' u')
    {as : List α} {s t : σ} {u : τ} (h : T.run s as = some t) (hR : R s u) :
    ∃ u', U.run u (T.trace image s as) = some u' ∧ R t u' := by
  induction as generalizing s u with
  | nil =>
    obtain rfl : s = t := by simpa using h
    exact ⟨u, rfl, hR⟩
  | cons a as ih =>
    obtain ⟨s', h₁, h₂⟩ := (T.run_cons_eq_some).mp h
    obtain ⟨u₁, hfirst, hR₁⟩ := hstep s a s' u hR h₁
    obtain ⟨u', hrest, hR'⟩ := ih h₂ hR₁
    exact ⟨u', by rw [T.trace_cons_of_step as h₁, U.run_append _ hfirst, hrest], hR'⟩

end Simulation

end Transition

end Foundations
