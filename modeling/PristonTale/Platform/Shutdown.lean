import PristonTale.Platform.ThreadPool

set_option relaxedAutoImplicit false
set_option autoImplicit false

/-!
# The shutdown of the thread pool

`~ThreadPool` sets `m_Stop`, notifies all threads that wait, and joins each. It does not take the
mutex to set `m_Stop`. So a thread that has found `m_Stop` not set and no task, and has not yet
entered the wait, is not in the waiting set when `notify_all` executes and enters it afterwards, and
nothing notifies it any more. Where no thread stands there, the shutdown comes to its end.

## Main definitions

* `SteerStone.TaskPoolAction.Own` — a step of a thread or of the destructor.
* `SteerStone.TaskPool.Stopping` — all threads have been notified, and none waits or goes to wait.

## Main results

* `SteerStone.TaskPool.stopping_step` — a pool that stops goes on stopping.
* `SteerStone.TaskPool.exists_returned` — the destructor of a pool that stops can return.
* `SteerStone.shutdown_iff` — the states in which `notify_all` leaves no thread behind.
-/

namespace SteerStone

open Foundations

/-- A step of a thread or of the destructor: no call of `Enqueue`, and no thread wakes up by
itself. -/
def TaskPoolAction.Own : TaskPoolAction → Prop
  | .worker _ | .destructor => True
  | .wake _ | .enqueue | .notifyOne _ => False

namespace TaskPool

/-- `notify_all` has executed, and no thread waits or goes to wait. -/
structure Stopping (s : TaskPool) : Prop where
  /-- What holds at any time. -/
  invariant : s.Invariant
  /-- `m_Stop` is set. -/
  stop : s.pool.stop = true
  /-- The destructor joins the threads, or has done so. -/
  joining : s.destructor = .returned ∨ ∃ worker, s.destructor = .join worker
  /-- No thread waits or goes to wait. -/
  awake : ∀ (worker : ℕ) (point : WorkerPoint), s.workers[worker]? = some point →
    point ≠ .wait ∧ point ≠ .waiting

/-! ## A pool that stops -/

/-- A thread of a pool that stops does not go to wait. -/
lemma awake_of_launchStep {worker : ℕ} {p p' : ThreadPool ℕ} {point point' : WorkerPoint}
    (hstop : p.stop = true) (hpoint : point ≠ .wait ∧ point ≠ .waiting)
    (h : LaunchStep worker p point p' point') :
    p'.stop = true ∧ point' ≠ .wait ∧ point' ≠ .waiting := by
  cases h with
  | goToWait hnot => exact absurd (hnot.symm.trans hstop) Bool.false_ne_true
  | wait => exact absurd rfl hpoint.1
  | _ => exact ⟨hstop, nofun, nofun⟩

/-- **A pool that stops goes on stopping**, whatever happens. -/
theorem stopping_step (s : TaskPool) (a : TaskPoolAction) (s' : TaskPool) (h : s.Stopping)
    (hstep : taskPoolSystem.step s a = some s') : s'.Stopping := by
  have hinv := invariant_step s a s' h.invariant hstep
  cases taskPoolSystem_step_iff.mp hstep with
  | @worker worker point pool point' hpoint hlaunch =>
    have hnext := awake_of_launchStep h.stop (h.awake worker point hpoint) hlaunch
    refine ⟨hinv, hnext.1, h.joining, fun j q hq => ?_⟩
    rcases getElem?_set_cases hq with ⟨-, rfl⟩ | ⟨-, hq⟩
    · exact hnext.2
    · exact h.awake j q hq
  | wake hwaiting => exact absurd rfl (h.awake _ _ hwaiting).2
  | notify _ hwaiting => exact absurd rfl (h.awake _ _ hwaiting).2
  | enqueue | notifyNone => exact ⟨hinv, h.stop, h.joining, h.awake⟩
  | setStop hpoint => exact absurd h.joining (by rw [hpoint]; simp)
  | notifyAll hpoint => exact absurd h.joining (by rw [hpoint]; simp)
  | join => exact ⟨hinv, h.stop, Or.inr ⟨_, rfl⟩, h.awake⟩
  | finish => exact ⟨hinv, h.stop, Or.inl rfl, h.awake⟩

end TaskPool

/-! ## The end of the shutdown -/

/-- How many steps a thread of a pool that stops is from its end. -/
def WorkerPoint.rank : WorkerPoint → ℕ
  | .take => 5
  | .call _ => 4
  | .lock => 3
  | .test => 2
  | .checkStop => 1
  | .wait | .waiting | .returned => 0

/-- How many joins the destructor is from its end. -/
def DestructorPoint.rank (workers : ℕ) : DestructorPoint → ℕ
  | .join worker => workers - worker + 1
  | .setStop | .notifyAll | .returned => 0

namespace TaskPool

/-- How many steps a pool that stops is from its end. -/
def rank (s : TaskPool) : ℕ :=
  (s.workers.map WorkerPoint.rank).sum + s.destructor.rank s.workers.length

/-- A thread of a pool that stops can go on, if it is its turn with the mutex, and comes nearer to
its end. -/
lemma exists_launchStep (me : ℕ) {p : ThreadPool ℕ} {point : WorkerPoint} (hstop : p.stop = true)
    (hturn : point.Holds ∨ p.mutex = none) (hassert : point.Asserts p)
    (hawake : point ≠ .wait ∧ point ≠ .waiting) (hne : point ≠ .returned) :
    ∃ p' point', LaunchStep me p point p' point' ∧ point'.rank < point.rank := by
  cases point with
  | lock => exact ⟨_, _, .lock (hturn.resolve_left id), by decide⟩
  | test => exact ⟨_, _, .leaveLoop (Or.inl hstop), by decide⟩
  | wait => exact absurd rfl hawake.1
  | waiting => exact absurd rfl hawake.2
  | checkStop => exact ⟨_, _, .stop hstop, by decide⟩
  | take =>
    obtain ⟨task, rest, htasks⟩ := List.exists_cons_of_ne_nil hassert
    exact ⟨_, _, .take htasks, Nat.lt_succ_self 4⟩
  | call task => exact ⟨_, _, .call, Nat.lt_succ_self 3⟩
  | returned => exact absurd rfl hne

/-- While a thread of a pool that stops has not returned, one of the threads can go on: the one that
holds the mutex, or any if none does. -/
lemma exists_stepWorker {s : TaskPool} (h : s.Stopping) {worker : ℕ} {point : WorkerPoint}
    (hpoint : s.workers[worker]? = some point) (hne : point ≠ .returned) :
    ∃ a s', TaskPoolAction.Own a ∧ taskPoolSystem.step s a = some s' ∧ s'.rank < s.rank := by
  -- the thread whose turn it is
  obtain ⟨w, q, hq, hturn, hqne⟩ : ∃ (w : ℕ) (q : WorkerPoint), s.workers[w]? = some q ∧
      (q.Holds ∨ s.pool.mutex = none) ∧ q ≠ .returned := by
    cases hmutex : s.pool.mutex with
    | none => exact ⟨worker, point, hpoint, Or.inr rfl, hne⟩
    | some w =>
      have hlt := h.invariant.exclusive.owner_lt w hmutex
      have hw := List.getElem?_eq_getElem hlt
      have hholds := (h.invariant.exclusive.holds_iff w _ hw).mpr hmutex
      exact ⟨w, _, hw, Or.inl hholds, fun heq => by rw [heq] at hholds; exact hholds⟩
  obtain ⟨p', q', hlaunch, hlt⟩ := exists_launchStep w h.stop hturn
    (h.invariant.asserted w q hq) (h.awake w q hq) hqne
  refine ⟨.worker w, _, trivial, taskPoolSystem_step_iff.mpr (.worker hq hlaunch), ?_⟩
  have hsum := sum_map_set_lt WorkerPoint.rank hq hlt
  simp only [rank, List.length_set]
  omega

/-- When all threads have returned, the destructor goes on to join them. -/
lemma exists_stepDestructor {s : TaskPool} {worker : ℕ} (hjoin : s.destructor = .join worker)
    (hall : ∀ (w : ℕ) (point : WorkerPoint), s.workers[w]? = some point → point = .returned) :
    ∃ a s', TaskPoolAction.Own a ∧ taskPoolSystem.step s a = some s' ∧ s'.rank < s.rank := by
  cases hw : s.workers[worker]? with
  | none =>
    refine ⟨.destructor, _, trivial, taskPoolSystem_step_iff.mpr (.finish hjoin hw), ?_⟩
    simp only [rank, hjoin, DestructorPoint.rank]
    omega
  | some point =>
    obtain rfl := hall worker point hw
    have hlt := (List.getElem?_eq_some_iff.mp hw).1
    refine ⟨.destructor, _, trivial, taskPoolSystem_step_iff.mpr (.join hjoin hw), ?_⟩
    simp only [rank, hjoin, DestructorPoint.rank]
    omega

/-- **The destructor of a pool that stops can return**: by steps of the threads and its own alone.

**Proof sketch.** While a thread has not returned, one can go on (`exists_stepWorker`), and then the
destructor can (`exists_stepDestructor`). Each of these steps brings the pool nearer to its end. -/
theorem exists_returned {s : TaskPool} (h : s.Stopping) :
    ∃ cs u, (∀ c ∈ cs, TaskPoolAction.Own c) ∧ taskPoolSystem.run s cs = some u ∧
      u.destructor = .returned := by
  refine taskPoolSystem.exists_run_of_progress (I := Stopping)
    (G := fun s => s.destructor = .returned) (m := rank) (fun s h hne => ?_) h
  have hnext : ∃ a s', TaskPoolAction.Own a ∧ taskPoolSystem.step s a = some s' ∧
      s'.rank < s.rank := by
    obtain ⟨worker, hjoin⟩ := h.joining.resolve_left hne
    by_cases hall : ∀ (w : ℕ) (point : WorkerPoint), s.workers[w]? = some point → point = .returned
    · exact exists_stepDestructor hjoin hall
    · simp only [not_forall] at hall
      obtain ⟨w, point, hpoint, hpne⟩ := hall
      exact exists_stepWorker h hpoint hpne
  obtain ⟨a, s', hown, hstep, hlt⟩ := hnext
  exact ⟨a, s', hown, hstep, stopping_step s a s' h hstep, hlt⟩

/-! ## `notify_all` -/

/-- `m_Stop` is set in the first step of the destructor, and not set back. -/
lemma stop_step (s : TaskPool) (a : TaskPoolAction) (s' : TaskPool)
    (h : s.destructor ≠ .setStop → s.pool.stop = true) (hstep : taskPoolSystem.step s a = some s') :
    s'.destructor ≠ .setStop → s'.pool.stop = true := by
  cases taskPoolSystem_step_iff.mp hstep with
  | worker _ hlaunch =>
    intro hne
    have hstop := h hne
    cases hlaunch <;> exact hstop
  | wake | enqueue | notify | notifyNone => exact h
  | setStop => exact fun _ => rfl
  | notifyAll hpoint => exact fun _ => h (by rw [hpoint]; nofun)
  | join hpoint => exact fun _ => h (by rw [hpoint]; nofun)
  | finish hpoint => exact fun _ => h (by rw [hpoint]; nofun)

/-- After `notify_all` the pool stops, unless a thread goes to wait then. -/
lemma stopping_notifyAll {n : ℕ} {as : List TaskPoolAction} {s : TaskPool}
    (hrun : taskPoolSystem.run (start n) as = some s) (hpoint : s.destructor = .notifyAll)
    (hwait : ∀ worker : ℕ, s.workers[worker]? ≠ some .wait) :
    Stopping { s with workers := s.workers.map .notified, destructor := .join 0 } := by
  have hstep := taskPoolSystem_step_iff.mpr (TaskPoolStep.notifyAll hpoint)
  have hstop : s.destructor ≠ .setStop → s.pool.stop = true :=
    taskPoolSystem.run_invariant stop_step hrun fun hne => absurd rfl hne
  refine ⟨invariant_step _ _ _ (invariant_of_run hrun) hstep,
    hstop (by rw [hpoint]; nofun), Or.inr ⟨0, rfl⟩, fun worker point hw => ?_⟩
  have hw' : (s.workers.map WorkerPoint.notified)[worker]? = some point := hw
  rw [List.getElem?_map] at hw'
  obtain ⟨before, hbefore, rfl⟩ := Option.map_eq_some_iff.mp hw'
  cases before with
  | wait => exact absurd hbefore (hwait worker)
  | _ => exact ⟨nofun, nofun⟩

end TaskPool

/-- **The shutdown, exactly.** For every number of threads in `LaunchWorkerThread` and every
interleaving of their steps with those of the destructor, and with calls of `Enqueue`, up to
`notify_all`: whatever happens afterwards, no thread is in the waiting set, and every join comes to
its end by steps of the threads and of the destructor alone, if and only if no thread stands between
the test of the condition and the wait when `notify_all` executes.

**Proof sketch.** Such a thread enters the wait in its next step. If there is none, no thread goes
to wait any more, as `m_Stop` is set (`TaskPool.stopping_step`), and the destructor can return
(`TaskPool.exists_returned`). -/
theorem shutdown_iff (n : ℕ) (as : List TaskPoolAction) {s s' : TaskPool}
    (hrun : taskPoolSystem.run (.start n) as = some s) (hpoint : s.destructor = .notifyAll)
    (hstep : taskPoolSystem.step s .destructor = some s') :
    (∀ bs t, taskPoolSystem.run s' bs = some t →
      (∀ worker : ℕ, t.workers[worker]? ≠ some .waiting) ∧
      ∃ cs u, (∀ c ∈ cs, TaskPoolAction.Own c) ∧ taskPoolSystem.run t cs = some u ∧
        u.destructor = .returned) ↔
      ∀ worker : ℕ, s.workers[worker]? ≠ some .wait := by
  have hnotified := taskPoolSystem_step_iff.mpr (TaskPoolStep.notifyAll hpoint)
  obtain rfl := Option.some.inj (hnotified.symm.trans hstep)
  constructor
  · intro hall worker hworker
    -- The thread was not notified, and enters the wait.
    have hw : (s.workers.map WorkerPoint.notified)[worker]? = some .wait := by
      rw [List.getElem?_map, hworker]
      rfl
    have henter := taskPoolSystem_step_iff.mpr (TaskPoolStep.worker (s := { s with
      workers := s.workers.map WorkerPoint.notified, destructor := .join 0 }) hw .wait)
    refine (hall [.worker worker] _ (taskPoolSystem.run_cons_of_step [] henter)).1 worker ?_
    exact getElem?_set_self_of_some hw
  · intro hwait bs t ht
    have hstopping := taskPoolSystem.run_invariant TaskPool.stopping_step ht
      (TaskPool.stopping_notifyAll hrun hpoint hwait)
    refine ⟨fun worker hworker => (hstopping.awake worker _ hworker).2 rfl, ?_⟩
    exact TaskPool.exists_returned hstopping

/-- A thread that waits when `m_Stop` is set, and then `notify_all`. -/
theorem shutdown_waiting : ∃ s s',
    taskPoolSystem.run (.start 1) [.worker 0, .worker 0, .worker 0, .destructor] = some s ∧
    taskPoolSystem.step s .destructor = some s' ∧ s.workers = [.waiting] ∧
    ∀ bs t, taskPoolSystem.run s' bs = some t →
      (∀ worker : ℕ, t.workers[worker]? ≠ some .waiting) ∧
      ∃ cs u, (∀ c ∈ cs, TaskPoolAction.Own c) ∧ taskPoolSystem.run t cs = some u ∧
        u.destructor = .returned := by
  refine ⟨_, _, rfl, rfl, rfl, (shutdown_iff 1 [.worker 0, .worker 0, .worker 0, .destructor] rfl
    rfl rfl).mpr fun worker hworker => ?_⟩
  have hmem := List.mem_of_getElem? hworker
  exact absurd hmem (by decide)

/-- A thread between the test and the wait when `m_Stop` is set and `notify_all` executes: it enters
the wait, the destructor joins it, and neither of them nor a call of `Enqueue` has a step left. -/
theorem shutdown_fails : ∃ s t,
    taskPoolSystem.run (.start 1) [.worker 0, .worker 0, .destructor] = some s ∧
    s.destructor = .notifyAll ∧ s.workers = [.wait] ∧
    taskPoolSystem.run s [.destructor, .worker 0] = some t ∧ t.workers = [.waiting] ∧
    t.destructor = .join 0 ∧ t.notifying = 0 ∧ taskPoolSystem.step t (.worker 0) = none ∧
    taskPoolSystem.step t .destructor = none :=
  ⟨_, _, rfl, rfl, rfl, rfl, rfl, rfl, rfl, rfl, rfl⟩

end SteerStone
