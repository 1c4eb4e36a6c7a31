import Mathlib.Data.List.MinMax
import Mathlib.Data.List.Nodup
import PristonTale.Foundations.Balance
import PristonTale.Foundations.Transition

set_option relaxedAutoImplicit false
set_option autoImplicit false

/-!
# Threads and several mutexes

Threads that take and release mutexes, none of them recursive. A thread waits while a mutex that it
wants is held, by another thread or by itself. If the mutexes are ranked, and each thread takes a
mutex only while those it holds have smaller ranks, then no threads wait for each other: of those
that wait, the one that wants the mutex of the largest rank waits for a thread that does not.

## Main definitions

* `Foundations.LockOp`, `Foundations.LockThread` — what a thread does with mutexes.
* `Foundations.lockSystem` — threads, one of which takes a step.
* `Foundations.Disciplined` — a thread takes mutexes in the order of their ranks, and releases what
  it has taken.

## Main results

* `Foundations.Disciplined.append` — disciplined calls, one after the other.
* `Foundations.exists_step_of_disciplined` — a thread can go on unless all have finished.
* `Foundations.lockSystem_completes` — threads that are disciplined all finish.
-/

namespace Foundations

variable {μ : Type*}

/-- What a thread does with a mutex. -/
inductive LockOp (μ : Type*) where
  | lock (m : μ)
  | unlock (m : μ)
  deriving DecidableEq, Repr

/-- A thread: the mutexes it holds, and what it has still to do. -/
structure LockThread (μ : Type*) where
  /-- The mutexes it holds. -/
  held : List μ
  /-- What it has still to do. -/
  program : List (LockOp μ)
  deriving DecidableEq, Repr

/-- The thread wants a mutex. -/
def LockThread.wants (t : LockThread μ) : Option μ :=
  match t.program with
  | .lock m :: _ => some m
  | _ => none

/-- **Threads and mutexes**: a thread takes its next step. It has none while somebody holds the
mutex it wants, and where it releases one that it does not hold. -/
def lockSystem [DecidableEq μ] : Transition (List (LockThread μ)) ℕ where
  step ts i :=
    match ts[i]? with
    | some ⟨held, .lock m :: rest⟩ =>
      if ∃ t ∈ ts, m ∈ t.held then none else some (ts.set i ⟨m :: held, rest⟩)
    | some ⟨held, .unlock m :: rest⟩ =>
      if m ∈ held then some (ts.set i ⟨held.erase m, rest⟩) else none
    | _ => none

/-- **The discipline**: with these mutexes held, each further one has a larger rank than those,
what is released is held, and nothing is held at the end. -/
def Disciplined [DecidableEq μ] (rank : μ → ℕ) : List μ → List (LockOp μ) → Prop
  | held, [] => held = []
  | held, .lock m :: rest => (∀ m' ∈ held, rank m' < rank m) ∧ Disciplined rank (m :: held) rest
  | held, .unlock m :: rest => m ∈ held ∧ Disciplined rank (held.erase m) rest

/-- A thread that is disciplined. -/
def LockThread.Disciplined [DecidableEq μ] (rank : μ → ℕ) (t : LockThread μ) : Prop :=
  Foundations.Disciplined rank t.held t.program

/-- What the threads hold after a step of one, up to order. -/
lemma held_set_perm {ts : List (LockThread μ)} {i : ℕ} {t : LockThread μ}
    (hi : ts[i]? = some t) (t' : LockThread μ) :
    ∃ others : List μ, (ts.flatMap LockThread.held).Perm (t.held ++ others) ∧
      ((ts.set i t').flatMap LockThread.held).Perm (t'.held ++ others) := by
  induction ts generalizing i with
  | nil => simp at hi
  | cons u ts ih =>
    cases i with
    | zero =>
      obtain rfl := Option.some.inj hi
      exact ⟨ts.flatMap LockThread.held, .refl _, .refl _⟩
    | succ i =>
      obtain ⟨others, hbefore, hafter⟩ := ih (i := i) hi
      refine ⟨u.held ++ others, ?_, ?_⟩
      · exact (hbefore.append_left u.held).trans (List.perm_append_comm_assoc _ _ _)
      · exact (hafter.append_left u.held).trans (List.perm_append_comm_assoc _ _ _)

variable [DecidableEq μ] {rank : μ → ℕ}

/-! ## The discipline -/

/-- **Disciplined calls, one after the other.** -/
theorem Disciplined.append {held : List μ} {p q : List (LockOp μ)}
    (hp : Disciplined rank held p) (hq : Disciplined rank [] q) :
    Disciplined rank held (p ++ q) := by
  induction p generalizing held with
  | nil =>
    obtain rfl : held = [] := hp
    exact hq
  | cons op p ih =>
    cases op with
    | lock m => exact ⟨hp.1, ih hp.2⟩
    | unlock m => exact ⟨hp.1, ih hp.2⟩

/-- Any number of disciplined calls. -/
lemma Disciplined.flatten {ps : List (List (LockOp μ))} (h : ∀ p ∈ ps, Disciplined rank [] p) :
    Disciplined rank [] ps.flatten := by
  induction ps with
  | nil => rfl
  | cons p ps ih =>
    obtain ⟨hp, hps⟩ := List.forall_mem_cons.mp h
    exact hp.append (ih hps)

/-! ## One step -/

/-- **All that a step can be.** -/
lemma lockSystem_step_cases {ts ts' : List (LockThread μ)} {i : ℕ}
    (h : lockSystem.step ts i = some ts') :
    ∃ held rest, (∃ m, ts[i]? = some ⟨held, .lock m :: rest⟩ ∧ (∀ t ∈ ts, m ∉ t.held) ∧
        ts' = ts.set i ⟨m :: held, rest⟩) ∨
      ∃ m, ts[i]? = some ⟨held, .unlock m :: rest⟩ ∧ m ∈ held ∧
        ts' = ts.set i ⟨held.erase m, rest⟩ := by
  simp only [lockSystem] at h
  split at h
  case h_1 held m rest hi =>
    split_ifs at h with hheld
    obtain rfl := Option.some.inj h
    simp only [not_exists, not_and] at hheld
    exact ⟨held, rest, .inl ⟨m, hi, hheld, rfl⟩⟩
  case h_2 held m rest hi =>
    split_ifs at h with hheld
    obtain rfl := Option.some.inj h
    exact ⟨held, rest, .inr ⟨m, hi, hheld, rfl⟩⟩
  case h_3 => cases h

/-- Threads, each disciplined, of which no two hold one mutex. -/
structure LockInvariant (rank : μ → ℕ) (ts : List (LockThread μ)) : Prop where
  /-- Each is disciplined. -/
  disciplined : ∀ t ∈ ts, t.Disciplined rank
  /-- Each mutex is held once at most. -/
  exclusive : (ts.flatMap LockThread.held).Nodup

/-- Each step keeps this. -/
lemma lockInvariant_step {ts ts' : List (LockThread μ)} {i : ℕ} (h : LockInvariant rank ts)
    (hstep : lockSystem.step ts i = some ts') : LockInvariant rank ts' := by
  obtain ⟨held, rest, ⟨m, hi, hfree, rfl⟩ | ⟨m, hi, hheld, rfl⟩⟩ := lockSystem_step_cases hstep
  · have hthis := h.disciplined _ (List.mem_of_getElem? hi)
    refine ⟨fun t ht => ?_, ?_⟩
    · rcases List.mem_or_eq_of_mem_set ht with ht | rfl
      · exact h.disciplined t ht
      · exact hthis.2
    · obtain ⟨others, hbefore, hafter⟩ := held_set_perm hi ⟨m :: held, rest⟩
      refine hafter.nodup_iff.mpr (List.nodup_cons.mpr ⟨fun hmem => ?_, ?_⟩)
      · obtain ⟨t, ht, hm⟩ := List.mem_flatMap.mp (hbefore.mem_iff.mpr hmem)
        exact hfree t ht hm
      · exact hbefore.nodup_iff.mp h.exclusive
  · have hthis := h.disciplined _ (List.mem_of_getElem? hi)
    refine ⟨fun t ht => ?_, ?_⟩
    · rcases List.mem_or_eq_of_mem_set ht with ht | rfl
      · exact h.disciplined t ht
      · exact hthis.2
    · obtain ⟨others, hbefore, hafter⟩ := held_set_perm hi ⟨held.erase m, rest⟩
      have hsub : (held.erase m ++ others).Sublist (held ++ others) :=
        List.erase_sublist.append_right others
      exact hafter.nodup_iff.mpr (hsub.nodup (hbefore.nodup_iff.mp h.exclusive))

/-! ## Progress -/

/-- A disciplined thread that has finished holds nothing. -/
lemma program_ne_nil_of_mem_held {t : LockThread μ} {m : μ} (h : t.Disciplined rank)
    (hm : m ∈ t.held) : t.program ≠ [] := by
  intro hnil
  unfold LockThread.Disciplined at h
  rw [hnil] at h
  have hheld : t.held = [] := h
  rw [hheld] at hm
  exact List.not_mem_nil hm

/-- A disciplined thread that wants a mutex holds mutexes of smaller ranks. -/
lemma rank_lt_of_wants {t : LockThread μ} {m m' : μ} (h : t.Disciplined rank)
    (hwants : t.wants = some m) (hm' : m' ∈ t.held) : rank m' < rank m := by
  obtain ⟨held, program⟩ := t
  match program, hwants with
  | .lock _ :: _, rfl => exact h.1 m' hm'

/-- A disciplined thread that cannot go on wants a mutex that is held. -/
lemma wants_of_stuck {ts : List (LockThread μ)} {t : LockThread μ} (ht : t ∈ ts)
    (h : t.Disciplined rank) (hne : t.program ≠ [])
    (hstuck : ∀ i, lockSystem.step ts i = none) :
    ∃ m, t.wants = some m ∧ ∃ t' ∈ ts, m ∈ t'.held := by
  obtain ⟨i, hi⟩ := List.mem_iff_getElem?.mp ht
  have hnone := hstuck i
  obtain ⟨held, program⟩ := t
  match program, hne with
  | .lock m :: rest, _ =>
    refine ⟨m, rfl, ?_⟩
    by_contra hfree
    simp only [lockSystem, hi, if_neg hfree] at hnone
    cases hnone
  | .unlock m :: rest, _ =>
    have hheld : m ∈ held := h.1
    simp only [lockSystem, hi, if_pos hheld] at hnone
    cases hnone

/-- **No deadlock**: a thread can go on unless all have finished.

**Proof sketch.** If none can go on, each that has not finished wants a mutex that is held. Take the
one whose mutex has the largest rank. The thread that holds it has not finished, so it wants a mutex
too, and that has a larger rank. -/
theorem exists_step_of_disciplined {ts : List (LockThread μ)} (h : LockInvariant rank ts)
    (hne : ∃ t ∈ ts, t.program ≠ []) : ∃ i ts', lockSystem.step ts i = some ts' := by
  by_contra hno
  have hstuck : ∀ i, lockSystem.step ts i = none := fun i => by
    cases hstep : lockSystem.step ts i with
    | none => rfl
    | some ts' => exact absurd ⟨i, ts', hstep⟩ hno
  obtain ⟨t, ht, hprogram⟩ := hne
  obtain ⟨m, hwants, -⟩ := wants_of_stuck ht (h.disciplined t ht) hprogram hstuck
  cases hmax : (ts.filterMap LockThread.wants).argmax rank with
  | none =>
    have hmem : m ∈ ts.filterMap LockThread.wants := List.mem_filterMap.mpr ⟨t, ht, hwants⟩
    rw [List.argmax_eq_none.mp hmax] at hmem
    exact List.not_mem_nil hmem
  | some top =>
    obtain ⟨u, hu, htop⟩ := List.mem_filterMap.mp (List.argmax_mem hmax)
    have hprogram' : u.program ≠ [] := by
      intro hnil
      rw [LockThread.wants, hnil] at htop
      cases htop
    obtain ⟨top', htop', v, hv, hheld⟩ :=
      wants_of_stuck hu (h.disciplined u hu) hprogram' hstuck
    obtain rfl := Option.some.inj (htop.symm.trans htop')
    -- The thread that holds it wants a mutex of a larger rank.
    have hrest := program_ne_nil_of_mem_held (h.disciplined v hv) hheld
    obtain ⟨next, hnext, -⟩ := wants_of_stuck hv (h.disciplined v hv) hrest hstuck
    have hlt := rank_lt_of_wants (h.disciplined v hv) hnext hheld
    have hle := List.le_of_mem_argmax (List.mem_filterMap.mpr ⟨v, hv, hnext⟩) hmax
    omega

/-- How much the threads have still to do. -/
def remaining (ts : List (LockThread μ)) : ℕ := (ts.map fun t => t.program.length).sum

/-- A step is one thing less to do. -/
lemma remaining_step {ts ts' : List (LockThread μ)} {i : ℕ}
    (hstep : lockSystem.step ts i = some ts') : remaining ts' + 1 = remaining ts := by
  obtain ⟨held, rest, ⟨m, hi, -, rfl⟩ | ⟨m, hi, -, rfl⟩⟩ := lockSystem_step_cases hstep
  · have hsum := sum_map_set (fun t : LockThread μ => t.program.length) hi ⟨m :: held, rest⟩
    simp only [List.length_cons] at hsum
    unfold remaining
    omega
  · have hsum := sum_map_set (fun t : LockThread μ => t.program.length) hi ⟨held.erase m, rest⟩
    simp only [List.length_cons] at hsum
    unfold remaining
    omega

/-- **Disciplined threads all finish**, in whatever order they take their steps: no mutex is held
twice, no run is longer than what there is to do, and where no thread can go on all have
finished. -/
theorem lockSystem_completes {ts ts' : List (LockThread μ)} {is : List ℕ}
    (h : LockInvariant rank ts) (hrun : lockSystem.run ts is = some ts') :
    (ts'.flatMap LockThread.held).Nodup ∧ is.length + remaining ts' = remaining ts ∧
      ((∀ i, lockSystem.step ts' i = none) → ∀ t ∈ ts', t.program = [] ∧ t.held = []) := by
  have hinv : LockInvariant rank ts' :=
    lockSystem.run_invariant (fun _ _ _ hts hstep => lockInvariant_step hts hstep) hrun h
  refine ⟨hinv.exclusive, ?_, fun hstuck t ht => ?_⟩
  · clear h hinv
    induction is generalizing ts with
    | nil =>
      obtain rfl : ts = ts' := by simpa using hrun
      simp
    | cons i is ih =>
      obtain ⟨ts₁, hstep, hrest⟩ := lockSystem.run_cons_eq_some.mp hrun
      have hone := remaining_step hstep
      have hmore := ih hrest
      rw [List.length_cons]
      omega
  · have hprogram : t.program = [] := by
      by_contra hne
      obtain ⟨i, ts'', hstep⟩ := exists_step_of_disciplined hinv ⟨t, ht, hne⟩
      rw [hstuck i] at hstep
      cases hstep
    have hdisciplined := hinv.disciplined t ht
    unfold LockThread.Disciplined at hdisciplined
    rw [hprogram] at hdisciplined
    exact ⟨hprogram, hdisciplined⟩

end Foundations
