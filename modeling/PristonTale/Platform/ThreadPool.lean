import Mathlib.Data.List.Nodup
import PristonTale.Foundations.Channel
import PristonTale.Foundations.Monitor

set_option relaxedAutoImplicit false
set_option autoImplicit false

/-!
# The thread pool

`ThreadPool` and `Worker` (`Shared/Platform/Thread/ThreadPool.{h,cpp}`, `ThreadWorker.h`): a queue
of tasks, threads that take them from it, a mutex and a condition variable between them, and the
destructor that stops the threads and joins them. A thread in `LaunchWorkerThread` stands at one of
its control points; from one to the next it reads or writes what the threads share, and while it
stands there everything else may happen.

`m_Stop` is written without the mutex, so it may be set while a thread stands anywhere: between the
test of the condition and the wait, and between the wait and the take.

## Main definitions

* `SteerStone.ThreadPool` — what the threads share.
* `SteerStone.WorkerPoint` — the control points of `LaunchWorkerThread`;
  `SteerStone.ThreadPool.launchWorkerThread` — its steps.
* `SteerStone.TaskPool` — a pool, the threads, and the destructor.
* `SteerStone.taskPoolSystem` — the steps of the threads, of any number of calls of `Enqueue`, and
  of the destructor, in any order.

## Main results

* `SteerStone.launchWorkerThread_eq_some_iff`, `SteerStone.taskPoolSystem_step_iff` — all that a
  thread, and all that the pool can do in a step.
* `SteerStone.TaskPool.invariant_step` — each step keeps the mutex exclusive, what the control
  points assert, and the tasks in a first-in first-out channel.
* `SteerStone.tasks_handed_out` — the tasks are taken in order, each by one thread.

## Implementation notes

* A task is known by its number among all tasks enqueued.
* `Enqueue` is its critical section, and then `notify_one`, which wakes one of the threads that
  wait, if there are any. A thread may also wake up without having been notified.
* A task that is called returns.
-/

namespace SteerStone

open Foundations

/-- What the threads of a pool share. A thread is known by its `ι`. -/
structure ThreadPool (ι : Type) where
  /-- `m_Tasks`. -/
  tasks : List ℕ
  /-- `m_Stop`. -/
  stop : Bool
  /-- The thread that holds `m_Mutex`. -/
  mutex : Option ι
  deriving DecidableEq, Repr

/-- The control points of `LaunchWorkerThread`. -/
inductive WorkerPoint where
  /-- `m_Mutex` is to be taken: by the guard, or to return from the wait. -/
  | lock
  /-- The condition of the inner loop. -/
  | test
  /-- The call of `wait`. -/
  | wait
  /-- In the waiting set of `m_Condition`. -/
  | waiting
  /-- The test of `m_Stop` behind the inner loop. -/
  | checkStop
  /-- `front` and `pop_front`. -/
  | take
  /-- The call of the task. -/
  | call (task : ℕ)
  /-- `LaunchWorkerThread` has returned. -/
  | returned
  deriving DecidableEq, Repr

/-- The points at which a thread holds `m_Mutex`. -/
def WorkerPoint.Holds : WorkerPoint → Prop
  | .test | .wait | .checkStop | .take => True
  | .lock | .waiting | .call _ | .returned => False

namespace ThreadPool

variable {ι : Type}

/-- The constructor, before it starts a thread. -/
def empty : ThreadPool ι := ⟨[], false, none⟩

/-- **The next step of a thread in `LaunchWorkerThread`**: what it leaves, and the point it comes
to. There is none while another thread holds the mutex it wants, in the wait, behind the end, and
where `front` of an empty queue is taken. -/
def launchWorkerThread (me : ι) (p : ThreadPool ι) :
    WorkerPoint → Option (ThreadPool ι × WorkerPoint)
  | .lock =>
    match p.mutex with
    | none => some ({ p with mutex := some me }, .test)
    | some _ => none
  | .test => some (p, if !p.stop && p.tasks.isEmpty then .wait else .checkStop)
  | .wait => some ({ p with mutex := none }, .waiting)
  | .waiting => none
  | .checkStop => if p.stop then some ({ p with mutex := none }, .returned) else some (p, .take)
  | .take =>
    match p.tasks with
    | [] => none
    | task :: rest => some ({ p with tasks := rest, mutex := none }, .call task)
  | .call _ => some (p, .lock)
  | .returned => none

end ThreadPool

/-- The control points of `~ThreadPool`. -/
inductive DestructorPoint where
  /-- `m_Stop = true`. -/
  | setStop
  /-- `notify_all`. -/
  | notifyAll
  /-- The `join` of a worker. -/
  | join (worker : ℕ)
  /-- The destructor has returned. -/
  | returned
  deriving DecidableEq, Repr

/-- A pool with its threads, and what has happened to the tasks. -/
structure TaskPool where
  /-- What the threads share. -/
  pool : ThreadPool ℕ
  /-- `m_Workers`: where each thread stands. -/
  workers : List WorkerPoint
  /-- The calls of `Enqueue` that have still to notify. -/
  notifying : ℕ
  /-- Where the destructor stands. -/
  destructor : DestructorPoint
  /-- How many tasks have been enqueued. -/
  enqueued : ℕ
  /-- The tasks that have been taken, in order, each with the thread that took it. -/
  taken : List (ℕ × ℕ)
  deriving DecidableEq, Repr

/-- What happens to a pool. -/
inductive TaskPoolAction where
  /-- A thread takes its next step. -/
  | worker (worker : ℕ)
  /-- A thread that waits wakes up without having been notified. -/
  | wake (worker : ℕ)
  /-- The critical section of `Enqueue`. -/
  | enqueue
  /-- The `notify_one` of `Enqueue`, and the thread it wakes. -/
  | notifyOne (woken : Option ℕ)
  /-- The destructor takes its next step. -/
  | destructor
  deriving DecidableEq, Repr

/-- What a thread that comes to a point has taken. -/
def WorkerPoint.taking (worker : ℕ) : WorkerPoint → List (ℕ × ℕ)
  | .call task => [(worker, task)]
  | _ => []

/-- A thread that waits is woken, and wants the mutex again. -/
def WorkerPoint.notified : WorkerPoint → WorkerPoint
  | .waiting => .lock
  | point => point

namespace TaskPool

/-- `n` threads at the start of `LaunchWorkerThread`. -/
def start (n : ℕ) : TaskPool := ⟨.empty, List.replicate n .lock, 0, .setStop, 0, []⟩

/-- The next step of a thread. -/
def stepWorker (s : TaskPool) (worker : ℕ) : Option TaskPool := do
  let point ← s.workers[worker]?
  let (pool, point') ← s.pool.launchWorkerThread worker point
  return { s with
    pool := pool
    workers := s.workers.set worker point'
    taken := s.taken ++ point'.taking worker }

/-- A thread wakes up, if it waits. -/
def wake (s : TaskPool) (worker : ℕ) : Option TaskPool :=
  if s.workers[worker]? = some .waiting then
    some { s with workers := s.workers.set worker .lock }
  else none

/-- The critical section of `Enqueue`. -/
def enqueue (s : TaskPool) : Option TaskPool :=
  match s.pool.mutex with
  | none => some { s with
      pool := { s.pool with tasks := s.pool.tasks ++ [s.enqueued] }
      enqueued := s.enqueued + 1
      notifying := s.notifying + 1 }
  | some _ => none

/-- The `notify_one` of `Enqueue`. It wakes a thread unless none waits. -/
def notifyOne (s : TaskPool) (woken : Option ℕ) : Option TaskPool :=
  match s.notifying, woken with
  | 0, _ => none
  | k + 1, some worker => { s with notifying := k }.wake worker
  | k + 1, none => if .waiting ∈ s.workers then none else some { s with notifying := k }

/-- The next step of the destructor. A `join` waits for the thread to return. -/
def stepDestructor (s : TaskPool) : Option TaskPool :=
  match s.destructor with
  | .setStop => some { s with pool := { s.pool with stop := true }, destructor := .notifyAll }
  | .notifyAll => some { s with workers := s.workers.map .notified, destructor := .join 0 }
  | .join worker =>
    match s.workers[worker]? with
    | none => some { s with destructor := .returned }
    | some .returned => some { s with destructor := .join (worker + 1) }
    | some _ => none
  | .returned => none

end TaskPool

/-- **The pool**: steps of the threads, of any number of calls of `Enqueue`, and of the destructor,
in any order. -/
def taskPoolSystem : Transition TaskPool TaskPoolAction where
  step s
    | .worker worker => s.stepWorker worker
    | .wake worker => s.wake worker
    | .enqueue => s.enqueue
    | .notifyOne woken => s.notifyOne woken
    | .destructor => s.stepDestructor

/-! ## What a step can do -/

/-- **The steps of `LaunchWorkerThread`**, one for each way a control point can be left. -/
inductive LaunchStep {ι : Type} (me : ι) :
    ThreadPool ι → WorkerPoint → ThreadPool ι → WorkerPoint → Prop where
  | lock {p : ThreadPool ι} (hfree : p.mutex = none) :
      LaunchStep me p .lock { p with mutex := some me } .test
  | goToWait {p : ThreadPool ι} (hstop : p.stop = false) (hempty : p.tasks = []) :
      LaunchStep me p .test p .wait
  | leaveLoop {p : ThreadPool ι} (h : p.stop = true ∨ p.tasks ≠ []) :
      LaunchStep me p .test p .checkStop
  | wait {p : ThreadPool ι} : LaunchStep me p .wait { p with mutex := none } .waiting
  | stop {p : ThreadPool ι} (hstop : p.stop = true) :
      LaunchStep me p .checkStop { p with mutex := none } .returned
  | goOn {p : ThreadPool ι} (hstop : p.stop = false) : LaunchStep me p .checkStop p .take
  | take {p : ThreadPool ι} {task : ℕ} {rest : List ℕ} (htasks : p.tasks = task :: rest) :
      LaunchStep me p .take { p with tasks := rest, mutex := none } (.call task)
  | call {p : ThreadPool ι} {task : ℕ} : LaunchStep me p (.call task) p .lock

/-- **All that a step can do.**

**Proof sketch.** By the statement the thread is at. Where the statement tests something, a case of
the test is a constructor; the wait for the mutex, the sleep and the end have no step. -/
theorem launchWorkerThread_eq_some_iff {ι : Type} {me : ι} {p p' : ThreadPool ι}
    {point point' : WorkerPoint} :
    p.launchWorkerThread me point = some (p', point') ↔ LaunchStep me p point p' point' := by
  constructor
  · intro h
    cases point with
    | lock =>
      simp only [ThreadPool.launchWorkerThread] at h
      split at h
      case h_1 hfree =>
        obtain ⟨rfl, rfl⟩ := Prod.mk.inj (Option.some.inj h)
        exact .lock hfree
      case h_2 => cases h
    | test =>
      obtain ⟨rfl, rfl⟩ := Prod.mk.inj (Option.some.inj h)
      split
      case isTrue hwait =>
        rw [Bool.and_eq_true, Bool.not_eq_true', List.isEmpty_iff] at hwait
        exact .goToWait hwait.1 hwait.2
      case isFalse hleave =>
        rw [Bool.and_eq_true, Bool.not_eq_true', List.isEmpty_iff] at hleave
        refine .leaveLoop ?_
        by_cases hstop : p.stop = true
        · exact Or.inl hstop
        · exact Or.inr fun hempty => hleave ⟨Bool.eq_false_iff.mpr hstop, hempty⟩
    | wait =>
      obtain ⟨rfl, rfl⟩ := Prod.mk.inj (Option.some.inj h)
      exact .wait
    | waiting => cases h
    | checkStop =>
      simp only [ThreadPool.launchWorkerThread] at h
      split at h
      case isTrue hstop =>
        obtain ⟨rfl, rfl⟩ := Prod.mk.inj (Option.some.inj h)
        exact .stop hstop
      case isFalse hstop =>
        obtain ⟨rfl, rfl⟩ := Prod.mk.inj (Option.some.inj h)
        exact .goOn (Bool.eq_false_iff.mpr hstop)
    | take =>
      simp only [ThreadPool.launchWorkerThread] at h
      split at h
      case h_1 => cases h
      case h_2 htasks =>
        obtain ⟨rfl, rfl⟩ := Prod.mk.inj (Option.some.inj h)
        exact .take htasks
    | call task =>
      obtain ⟨rfl, rfl⟩ := Prod.mk.inj (Option.some.inj h)
      exact .call
    | returned => cases h
  · intro h
    cases h with
    | lock hfree => simp [ThreadPool.launchWorkerThread, hfree]
    | goToWait hstop hempty => simp [ThreadPool.launchWorkerThread, hstop, hempty]
    | leaveLoop h => rcases h with h | h <;> simp [ThreadPool.launchWorkerThread, h]
    | wait => rfl
    | stop hstop => simp [ThreadPool.launchWorkerThread, hstop]
    | goOn hstop => simp [ThreadPool.launchWorkerThread, hstop]
    | take htasks => simp [ThreadPool.launchWorkerThread, htasks]
    | call => rfl

/-- **The steps of a pool**, one for each thing that can happen. -/
inductive TaskPoolStep (s : TaskPool) : TaskPoolAction → TaskPool → Prop where
  | worker {worker : ℕ} {point : WorkerPoint} {pool : ThreadPool ℕ} {point' : WorkerPoint}
      (hpoint : s.workers[worker]? = some point)
      (hlaunch : LaunchStep worker s.pool point pool point') :
      TaskPoolStep s (.worker worker) { s with
        pool := pool
        workers := s.workers.set worker point'
        taken := s.taken ++ point'.taking worker }
  | wake {worker : ℕ} (hwaiting : s.workers[worker]? = some .waiting) :
      TaskPoolStep s (.wake worker) { s with workers := s.workers.set worker .lock }
  | enqueue (hfree : s.pool.mutex = none) :
      TaskPoolStep s .enqueue { s with
        pool := { s.pool with tasks := s.pool.tasks ++ [s.enqueued] }
        enqueued := s.enqueued + 1
        notifying := s.notifying + 1 }
  | notify {worker k : ℕ} (hk : s.notifying = k + 1)
      (hwaiting : s.workers[worker]? = some .waiting) :
      TaskPoolStep s (.notifyOne (some worker)) { s with
        notifying := k
        workers := s.workers.set worker .lock }
  | notifyNone {k : ℕ} (hk : s.notifying = k + 1) (hnone : .waiting ∉ s.workers) :
      TaskPoolStep s (.notifyOne none) { s with notifying := k }
  | setStop (hpoint : s.destructor = .setStop) :
      TaskPoolStep s .destructor { s with
        pool := { s.pool with stop := true }
        destructor := .notifyAll }
  | notifyAll (hpoint : s.destructor = .notifyAll) :
      TaskPoolStep s .destructor { s with
        workers := s.workers.map .notified
        destructor := .join 0 }
  | join {worker : ℕ} (hpoint : s.destructor = .join worker)
      (hreturned : s.workers[worker]? = some .returned) :
      TaskPoolStep s .destructor { s with destructor := .join (worker + 1) }
  | finish {worker : ℕ} (hpoint : s.destructor = .join worker)
      (hnone : s.workers[worker]? = none) :
      TaskPoolStep s .destructor { s with destructor := .returned }

/-- The steps of a thread. -/
lemma stepWorker_eq_some_iff {s s' : TaskPool} {worker : ℕ} :
    s.stepWorker worker = some s' ↔ TaskPoolStep s (.worker worker) s' := by
  unfold TaskPool.stepWorker
  simp only [Option.bind_eq_bind, Option.bind_eq_some_iff, Prod.exists, Option.pure_def,
    Option.some.injEq, launchWorkerThread_eq_some_iff]
  constructor
  · rintro ⟨point, hpoint, pool, point', hlaunch, rfl⟩
    exact .worker hpoint hlaunch
  · intro h
    cases h with
    | worker hpoint hlaunch => exact ⟨_, hpoint, _, _, hlaunch, rfl⟩

/-- The steps of the destructor. -/
lemma stepDestructor_eq_some_iff {s s' : TaskPool} :
    s.stepDestructor = some s' ↔ TaskPoolStep s .destructor s' := by
  unfold TaskPool.stepDestructor
  constructor
  · intro h
    split at h
    case h_1 hpoint =>
      obtain rfl := Option.some.inj h
      exact .setStop hpoint
    case h_2 hpoint =>
      obtain rfl := Option.some.inj h
      exact .notifyAll hpoint
    case h_3 worker hpoint =>
      split at h
      case h_1 hnone =>
        obtain rfl := Option.some.inj h
        exact .finish hpoint hnone
      case h_2 hreturned =>
        obtain rfl := Option.some.inj h
        exact .join hpoint hreturned
      case h_3 => cases h
    case h_4 => cases h
  · intro h
    cases h with
    | setStop hpoint => simp [hpoint]
    | notifyAll hpoint => simp [hpoint]
    | join hpoint hreturned => simp [hpoint, hreturned]
    | finish hpoint hnone => simp only [hpoint, hnone]

/-- The steps of `notify_one`. -/
lemma notifyOne_eq_some_iff {s s' : TaskPool} {woken : Option ℕ} :
    s.notifyOne woken = some s' ↔ TaskPoolStep s (.notifyOne woken) s' := by
  unfold TaskPool.notifyOne TaskPool.wake
  constructor
  · intro h
    split at h
    case h_1 => cases h
    case h_2 k worker hk =>
      split_ifs at h with hwaiting
      obtain rfl := Option.some.inj h
      exact .notify hk hwaiting
    case h_3 k hk =>
      split_ifs at h with hnone
      obtain rfl := Option.some.inj h
      exact .notifyNone hk hnone
  · intro h
    cases h with
    | notify hk hwaiting => simp [hk, hwaiting]
    | notifyNone hk hnone => simp [hk, hnone]

/-- **All that can happen to a pool.** -/
theorem taskPoolSystem_step_iff {s s' : TaskPool} {a : TaskPoolAction} :
    taskPoolSystem.step s a = some s' ↔ TaskPoolStep s a s' := by
  cases a with
  | worker worker => exact stepWorker_eq_some_iff
  | notifyOne woken => exact notifyOne_eq_some_iff
  | destructor => exact stepDestructor_eq_some_iff
  | wake worker =>
    constructor
    · intro h
      simp only [taskPoolSystem, TaskPool.wake] at h
      split_ifs at h with hwaiting
      obtain rfl := Option.some.inj h
      exact .wake hwaiting
    · intro h
      cases h with
      | wake hwaiting => exact if_pos hwaiting
  | enqueue =>
    constructor
    · intro h
      simp only [taskPoolSystem, TaskPool.enqueue] at h
      split at h
      case h_1 hfree =>
        obtain rfl := Option.some.inj h
        exact .enqueue hfree
      case h_2 => cases h
    · intro h
      cases h with
      | enqueue hfree => simp [taskPoolSystem, TaskPool.enqueue, hfree]

/-! ## What each step keeps -/

/-- What a control point asserts while the mutex is held: behind the inner loop there is a task or
the pool stops, and where a task is taken there is one. -/
def WorkerPoint.Asserts {ι : Type} : WorkerPoint → ThreadPool ι → Prop
  | .checkStop, p => p.stop = true ∨ p.tasks ≠ []
  | .take, p => p.tasks ≠ []
  | _, _ => True

/-- A point at which the mutex is not held asserts nothing. -/
lemma asserts_of_not_holds {ι : Type} (point : WorkerPoint) (p : ThreadPool ι)
    (h : ¬ point.Holds) : point.Asserts p := by
  cases point with
  | checkStop => exact absurd trivial h
  | take => exact absurd trivial h
  | _ => trivial

/-- To be woken changes neither whether a thread holds the mutex nor what it asserts. -/
lemma holds_notified (point : WorkerPoint) : point.notified.Holds ↔ point.Holds := by
  cases point <;> rfl

/-- The tasks are the queue of a channel that every task enqueued has been pushed into, and those
taken have been popped from. -/
structure TaskPool.Carries (s : TaskPool) (c : Channel ℕ) : Prop where
  /-- All tasks enqueued, in order. -/
  pushed : c.pushed = List.range s.enqueued
  /-- The tasks taken, in order. -/
  popped : c.popped = s.taken.map Prod.snd
  /-- The tasks in `m_Tasks`. -/
  queue : c.queue = s.pool.tasks

/-- What holds of a pool at any time. -/
structure TaskPool.Invariant (s : TaskPool) : Prop where
  /-- One thread at most holds the mutex. -/
  exclusive : Exclusive WorkerPoint.Holds s.workers s.pool.mutex
  /-- Each thread meets what its control point asserts. -/
  asserted : Asserted WorkerPoint.Asserts s.workers s.pool
  /-- The tasks are handed out in order. -/
  carries : ∃ c, s.Carries c

namespace TaskPool

variable {s s' : TaskPool} {a : TaskPoolAction}

/-- One thread at most holds the mutex after a step: a thread takes it when it is free, gives it
back, or goes on, and a call of `Enqueue` gives it back in the step in which it takes it. -/
lemma exclusive_step (h : Exclusive WorkerPoint.Holds s.workers s.pool.mutex)
    (hstep : TaskPoolStep s a s') : Exclusive WorkerPoint.Holds s'.workers s'.pool.mutex := by
  cases hstep with
  | worker hpoint hlaunch =>
    cases hlaunch with
    | lock hfree =>
      rw [hfree] at h
      exact h.acquire hpoint trivial
    | goToWait | leaveLoop | goOn | call => exact h.keep hpoint Iff.rfl
    | wait | stop | take => exact h.release hpoint trivial id
  | wake hwaiting => exact h.keep hwaiting Iff.rfl
  | notify _ hwaiting => exact h.keep hwaiting Iff.rfl
  | notifyAll => exact h.map holds_notified
  | enqueue | notifyNone | setStop | join | finish => exact h

/-- Each thread meets what its point asserts after a step.

**Proof sketch.** The inner loop is left with a task or when the pool stops, and as `m_Stop` is
never set back, there is a task if it is not set behind the loop. While the thread holds the mutex,
no other asserts anything (`Asserted.by_owner`), and while none does, none asserts anything
(`Asserted.of_unowned`). -/
lemma asserted_step (hex : Exclusive WorkerPoint.Holds s.workers s.pool.mutex)
    (h : Asserted WorkerPoint.Asserts s.workers s.pool) (hstep : TaskPoolStep s a s') :
    Asserted WorkerPoint.Asserts s'.workers s'.pool := by
  cases hstep with
  | @worker worker _ _ _ hpoint hlaunch =>
    cases hlaunch with
    | lock hfree =>
      rw [hfree] at hex
      have hall := Asserted.of_unowned asserts_of_not_holds hex
        { s.pool with mutex := some worker }
      exact hall.set trivial
    | goToWait => exact h.set trivial
    | leaveLoop htest => exact h.set htest
    | goOn hstop =>
      have hbehind : s.pool.stop = true ∨ s.pool.tasks ≠ [] := h worker _ hpoint
      rw [hstop] at hbehind
      exact h.set (hbehind.resolve_left Bool.false_ne_true)
    | wait | stop | take => exact Asserted.by_owner asserts_of_not_holds hex hpoint trivial trivial
    | call => exact h.set trivial
  | wake => exact h.set trivial
  | enqueue hfree =>
    rw [hfree] at hex
    exact Asserted.of_unowned asserts_of_not_holds hex _
  | notify => exact h.set trivial
  | setStop =>
    refine h.imp fun point hpoint => ?_
    cases point with
    | checkStop => exact Or.inl rfl
    | _ => exact hpoint
  | notifyAll =>
    refine h.map fun point hpoint => ?_
    cases point <;> exact hpoint
  | notifyNone | join | finish => exact h

/-- A step pushes a task when it is enqueued, pops one when it is taken, and leaves the tasks alone
otherwise. -/
lemma carries_step (h : ∃ c, s.Carries c) (hstep : TaskPoolStep s a s') : ∃ c, s'.Carries c := by
  obtain ⟨c, hpushed, hpopped, hqueue⟩ := h
  cases hstep with
  | @worker worker _ _ _ hpoint hlaunch =>
    cases hlaunch with
    | @take task rest htasks =>
      refine ⟨c.pop 1, hpushed, ?_, ?_⟩
      · show _ = (s.taken ++ [(worker, task)]).map Prod.snd
        rw [Channel.pop_popped, hqueue, htasks, hpopped, List.map_append]
        rfl
      · rw [Channel.pop_queue, hqueue, htasks]
        rfl
    | _ => exact ⟨c, hpushed, by rw [hpopped]; simp [WorkerPoint.taking], hqueue⟩
  | enqueue hfree =>
    refine ⟨c.push [s.enqueued], ?_, hpopped, ?_⟩
    · rw [Channel.push_pushed, hpushed]
      exact List.range_succ.symm
    · rw [Channel.push_queue, hqueue]
  | _ => exact ⟨c, hpushed, hpopped, hqueue⟩

/-- **One step** keeps what holds of a pool at any time. -/
theorem invariant_step (s : TaskPool) (a : TaskPoolAction) (s' : TaskPool)
    (h : s.Invariant) (hstep : taskPoolSystem.step s a = some s') : s'.Invariant := by
  have hpool := taskPoolSystem_step_iff.mp hstep
  exact ⟨exclusive_step h.exclusive hpool, asserted_step h.exclusive h.asserted hpool,
    carries_step h.carries hpool⟩

/-- It holds at the start. -/
lemma invariant_start (n : ℕ) : (start n).Invariant := by
  have hlock : ∀ (i : ℕ) (point : WorkerPoint), (start n).workers[i]? = some point →
      point = .lock := fun i point hpoint =>
    List.eq_of_mem_replicate (List.mem_of_getElem? hpoint)
  refine ⟨⟨fun i point hpoint => ?_, fun i hi => nomatch hi⟩, fun i point hpoint => ?_,
    .empty, rfl, rfl, rfl⟩
  · rw [hlock i point hpoint]
    exact iff_of_false id nofun
  · rw [hlock i point hpoint]
    trivial

/-- **In every run** of any number of threads. -/
lemma invariant_of_run {n : ℕ} {as : List TaskPoolAction} {s : TaskPool}
    (h : taskPoolSystem.run (start n) as = some s) : s.Invariant :=
  taskPoolSystem.run_invariant invariant_step h (invariant_start n)

end TaskPool

/-! ## The hand-out of the tasks -/

/-- **The tasks are handed out in order, each once.** For every number of threads in
`LaunchWorkerThread` and every interleaving of their steps with any number of calls of `Enqueue` and
with the destructor, which may set `m_Stop` at any moment: the tasks taken are the first of those
enqueued, in order, and the others are in `m_Tasks`; each task enqueued is either there and taken by
no thread, or taken, once, by exactly one; and no thread takes from an empty queue.

**Proof sketch.** Each step of the system keeps the tasks in a channel, and what the control points
assert (`TaskPool.invariant_step`). The law of the channel says that the tasks taken and those
in the queue are the tasks enqueued, in order, and no number is there twice. -/
theorem tasks_handed_out (n : ℕ) (as : List TaskPoolAction) (s : TaskPool)
    (h : taskPoolSystem.run (.start n) as = some s) :
    s.taken.map Prod.snd ++ s.pool.tasks = List.range s.enqueued ∧
    (∀ task < s.enqueued, (task ∈ s.pool.tasks ∧ ∀ worker, (worker, task) ∉ s.taken) ∨
      (task ∉ s.pool.tasks ∧ ∃! worker, (worker, task) ∈ s.taken)) ∧
    (s.taken.map Prod.snd).Nodup ∧
    ∀ worker : ℕ, s.workers[worker]? = some .take → s.pool.tasks ≠ [] := by
  have hinv := TaskPool.invariant_of_run h
  obtain ⟨c, hpushed, hpopped, hqueue⟩ := hinv.carries
  have hlaw : s.taken.map Prod.snd ++ s.pool.tasks = List.range s.enqueued := by
    rw [← hpopped, ← hqueue, c.law, hpushed]
  have hnodup : (s.taken.map Prod.snd ++ s.pool.tasks).Nodup := hlaw ▸ List.nodup_range
  obtain ⟨htaken, -, hdisjoint⟩ := List.nodup_append'.mp hnodup
  refine ⟨hlaw, fun task htask => ?_, htaken, fun worker hworker => hinv.asserted worker _ hworker⟩
  have hmem : task ∈ s.taken.map Prod.snd ++ s.pool.tasks := by
    rw [hlaw, List.mem_range]
    exact htask
  rcases List.mem_append.mp hmem with hin | hin
  · obtain ⟨⟨worker, number⟩, hworker, rfl⟩ := List.mem_map.mp hin
    refine Or.inr ⟨fun hqueued => hdisjoint hin hqueued, worker, hworker, fun other hother => ?_⟩
    exact congrArg Prod.fst (List.inj_on_of_nodup_map htaken hother hworker rfl)
  · refine Or.inl ⟨hin, fun worker hworker => ?_⟩
    exact hdisjoint (List.mem_map_of_mem hworker) hin

/-- Two threads and two tasks. The first thread takes the first task, which was enqueued while it
waited, and `m_Stop` is set before the second takes one. -/
theorem tasks_handed_out_two : ∃ s,
    taskPoolSystem.run (.start 2) [.worker 0, .worker 0, .worker 0, .enqueue, .enqueue,
      .notifyOne (some 0), .worker 0, .worker 0, .worker 0, .worker 0, .worker 1, .worker 1,
      .destructor, .worker 1] = some s ∧
    s.taken = [(0, 0)] ∧ s.pool.tasks = [1] ∧ s.taken.map Prod.snd ++ s.pool.tasks = [0, 1] :=
  ⟨_, rfl, rfl, rfl, (tasks_handed_out 2 [.worker 0, .worker 0, .worker 0, .enqueue, .enqueue,
      .notifyOne (some 0), .worker 0, .worker 0, .worker 0, .worker 0, .worker 1, .worker 1,
      .destructor, .worker 1] _ rfl).1⟩

end SteerStone
