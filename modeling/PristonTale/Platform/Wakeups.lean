import Mathlib.Algebra.Order.BigOperators.Group.List
import Mathlib.Algebra.Order.Ring.Nat
import PristonTale.Foundations.Balance
import PristonTale.Platform.ThreadPool

set_option relaxedAutoImplicit false
set_option autoImplicit false

/-!
# The wake-ups of the thread pool

`Enqueue` notifies one thread, after it has released the mutex. The thread may have been woken by
another call, may be gone from the waiting set, or may lose the race for the task. Nevertheless no
task stays behind: as long as `m_Stop` is not set, a task in the queue is seen by a thread that does
not wait, or by a notification that is still to come.

## Main definitions

* `SteerStone.TaskPoolAction.Serves` — a step of a thread or a pending notification.
* `SteerStone.TaskPool.Attended` — no task is left to threads that wait.
* `SteerStone.TaskPool.effort` — how many such steps there can be.

## Main results

* `SteerStone.TaskPool.attended_step` — nothing that can happen before the stop leaves a task to
  threads that wait.
* `SteerStone.TaskPool.effort_step`, `SteerStone.TaskPool.settled_of_stuck` — the steps come to an
  end, and what they come to.
* `SteerStone.no_lost_wakeup` — the threads take all tasks, whatever the order of their steps.
-/

namespace SteerStone

open Foundations

/-- A step of a thread, or the notification of a call of `Enqueue`: nothing is enqueued, no thread
wakes up by itself, and the destructor is not called. -/
def TaskPoolAction.Serves : TaskPoolAction → Prop
  | .worker _ | .notifyOne _ => True
  | .wake _ | .enqueue | .destructor => False

/-- What a thread has seen that goes to wait: no task. It holds the mutex, so there is none yet. -/
def WorkerPoint.Sees {ι : Type} : WorkerPoint → ThreadPool ι → Prop
  | .wait, p => p.tasks = []
  | _, _ => True

/-- How many steps a thread can take until it waits, if it finds no further task. -/
def WorkerPoint.effort : WorkerPoint → ℕ
  | .call _ => 6
  | .lock => 5
  | .test => 4
  | .checkStop => 3
  | .take => 2
  | .wait => 1
  | .waiting | .returned => 0

/-- A thread takes six steps at most until it waits. -/
lemma WorkerPoint.effort_le (point : WorkerPoint) : point.effort ≤ 6 := by
  cases point <;> simp [WorkerPoint.effort]

/-- A point at which the mutex is not held has seen nothing. -/
lemma sees_of_not_holds {ι : Type} (point : WorkerPoint) (p : ThreadPool ι)
    (h : ¬ point.Holds) : point.Sees p := by
  cases point with
  | wait => exact absurd trivial h
  | _ => trivial

namespace TaskPool

/-- **No task is left to threads that wait.** There are threads, and none has returned. -/
structure Attended (s : TaskPool) : Prop where
  /-- What holds at any time. -/
  invariant : s.Invariant
  /-- There is a thread. -/
  inhabited : s.workers ≠ []
  /-- No thread has returned. -/
  remain : ∀ worker : ℕ, s.workers[worker]? ≠ some .returned
  /-- A thread that goes to wait has seen that there is no task. -/
  seen : Asserted WorkerPoint.Sees s.workers s.pool
  /-- If there is a task, there is a notification to come or a thread that does not wait. -/
  attended : s.pool.tasks ≠ [] → 0 < s.notifying ∨
    ∃ (worker : ℕ) (point : WorkerPoint), s.workers[worker]? = some point ∧ point ≠ .waiting

/-- How many steps the threads and the pending notifications can take. -/
def effort (s : TaskPool) : ℕ :=
  (s.workers.map WorkerPoint.effort).sum + 5 * s.pool.tasks.length + 6 * s.notifying

variable {s s' : TaskPool} {a : TaskPoolAction}

/-! ## No task is left to threads that wait -/

/-- `m_Stop` is not set back. -/
lemma running_of_step (hstep : TaskPoolStep s a s') (h : s'.pool.stop = false) :
    s.pool.stop = false := by
  cases hstep with
  | worker _ hlaunch => cases hlaunch <;> exact h
  | setStop => cases h
  | _ => exact h

/-- A thread that goes to wait has seen that there is no task, after each step. -/
lemma seen_step (hex : Exclusive WorkerPoint.Holds s.workers s.pool.mutex)
    (h : Asserted WorkerPoint.Sees s.workers s.pool) (hstep : TaskPoolStep s a s') :
    Asserted WorkerPoint.Sees s'.workers s'.pool := by
  cases hstep with
  | @worker worker _ _ _ hpoint hlaunch =>
    cases hlaunch with
    | lock hfree =>
      rw [hfree] at hex
      have hall := Asserted.of_unowned sees_of_not_holds hex
        { s.pool with mutex := some worker }
      exact hall.set trivial
    | goToWait _ hempty => exact h.set hempty
    | leaveLoop | goOn | call => exact h.set trivial
    | wait | stop | take => exact Asserted.by_owner sees_of_not_holds hex hpoint trivial trivial
  | enqueue hfree =>
    rw [hfree] at hex
    exact Asserted.of_unowned sees_of_not_holds hex _
  | wake | notify => exact h.set trivial
  | setStop =>
    refine h.imp fun point hpoint => ?_
    cases point <;> exact hpoint
  | notifyAll =>
    refine h.map fun point hpoint => ?_
    cases point <;> exact hpoint
  | notifyNone | join | finish => exact h

/-- No thread returns before the stop. -/
lemma remain_step (hrunning : s.pool.stop = false)
    (h : ∀ worker : ℕ, s.workers[worker]? ≠ some .returned) (hstep : TaskPoolStep s a s') :
    ∀ worker : ℕ, s'.workers[worker]? ≠ some .returned := by
  have hset : ∀ {i : ℕ} {p : WorkerPoint}, p ≠ .returned →
      ∀ worker : ℕ, (s.workers.set i p)[worker]? ≠ some .returned := by
    intro i p hp worker hworker
    rcases getElem?_set_cases hworker with ⟨-, heq⟩ | ⟨-, hold⟩
    · exact hp heq.symm
    · exact h worker hold
  cases hstep with
  | worker hpoint hlaunch =>
    cases hlaunch with
    | stop hstop => exact absurd (hrunning.symm.trans hstop) Bool.false_ne_true
    | _ => exact hset nofun
  | wake | notify => exact hset nofun
  | notifyAll =>
    intro worker hworker
    have hmap : (s.workers.map WorkerPoint.notified)[worker]? = some .returned := hworker
    rw [List.getElem?_map] at hmap
    obtain ⟨point, hpoint, hnotified⟩ := Option.map_eq_some_iff.mp hmap
    cases point with
    | returned => exact h worker hpoint
    | _ => cases hnotified
  | enqueue | notifyNone | setStop | join | finish => exact h

/-- If there is a task after a step, there is a notification to come or a thread that does not wait.

**Proof sketch.** The thread that takes a step does not wait after it, unless it enters the wait,
and it does so with an empty queue only. The call of `Enqueue` that adds a task has its notification
to come. A notification wakes a thread, or there is none that waits. -/
lemma attended_step_of_tasks (h : s.Attended) (hstep : TaskPoolStep s a s')
    (htasks : s'.pool.tasks ≠ []) : 0 < s'.notifying ∨
      ∃ (worker : ℕ) (point : WorkerPoint), s'.workers[worker]? = some point ∧
        point ≠ .waiting := by
  cases hstep with
  | @worker worker _ _ _ hpoint hlaunch =>
    cases hlaunch with
    | wait => exact absurd (h.seen worker _ hpoint) htasks
    | _ => exact Or.inr ⟨worker, _, getElem?_set_self_of_some hpoint, nofun⟩
  | wake hwaiting => exact Or.inr ⟨_, _, getElem?_set_self_of_some hwaiting, nofun⟩
  | notify _ hwaiting => exact Or.inr ⟨_, _, getElem?_set_self_of_some hwaiting, nofun⟩
  | enqueue => exact Or.inl (Nat.succ_pos _)
  | notifyNone _ hnone =>
    obtain ⟨point, rest, hworkers⟩ := List.exists_cons_of_ne_nil h.inhabited
    refine Or.inr ⟨0, point, by rw [hworkers]; rfl, fun heq => hnone ?_⟩
    rw [hworkers, heq]
    exact List.mem_cons_self
  | notifyAll =>
    obtain ⟨point, rest, hworkers⟩ := List.exists_cons_of_ne_nil h.inhabited
    refine Or.inr ⟨0, point.notified, by rw [hworkers]; rfl, ?_⟩
    cases point <;> exact nofun
  | setStop | join | finish => exact h.attended htasks

/-- **What can happen before the stop leaves no task to threads that wait.** -/
theorem attended_step (h : s.Attended) (hstep : taskPoolSystem.step s a = some s')
    (hrunning : s'.pool.stop = false) : s'.Attended := by
  have hpool := taskPoolSystem_step_iff.mp hstep
  refine ⟨invariant_step s a s' h.invariant hstep, ?_,
    remain_step (running_of_step hpool hrunning) h.remain hpool,
    seen_step h.invariant.exclusive h.seen hpool, attended_step_of_tasks h hpool⟩
  cases hpool with
  | worker | wake | notify => exact fun hnil => h.inhabited ((List.set_eq_nil_iff _ _).mp hnil)
  | notifyAll => exact fun hnil => h.inhabited (List.map_eq_nil_iff.mp hnil)
  | _ => exact h.inhabited

/-- It holds at the start, if there is a thread. -/
lemma attended_start {n : ℕ} (hn : 0 < n) : (start n).Attended := by
  have hlock : ∀ (i : ℕ) (point : WorkerPoint), (start n).workers[i]? = some point →
      point = .lock := fun i point hpoint =>
    List.eq_of_mem_replicate (List.mem_of_getElem? hpoint)
  refine ⟨invariant_start n, fun hnil => ?_, fun worker hworker => ?_, fun i point hpoint => ?_,
    fun htasks => absurd rfl htasks⟩
  · exact Nat.ne_of_gt hn ((List.replicate_eq_nil_iff _).mp hnil)
  · cases hlock worker _ hworker
  · rw [hlock i point hpoint]
    trivial

/-- **In every run** of at least one thread, before the stop. -/
lemma attended_of_run {n : ℕ} (hn : 0 < n) {as : List TaskPoolAction} {s : TaskPool}
    (h : taskPoolSystem.run (start n) as = some s) (hrunning : s.pool.stop = false) :
    s.Attended := by
  refine taskPoolSystem.run_invariant (I := fun s => s.pool.stop = false → s.Attended)
    (fun s a s' hs hstep hrunning => ?_) h (fun _ => attended_start hn) hrunning
  have hpool := taskPoolSystem_step_iff.mp hstep
  exact attended_step (hs (running_of_step hpool hrunning)) hstep hrunning

/-! ## The end of the steps -/

/-- The number of the threads does not change. -/
lemma length_workers_step (s : TaskPool) (a : TaskPoolAction) (s' : TaskPool)
    (hstep : taskPoolSystem.step s a = some s') : s'.workers.length = s.workers.length := by
  cases taskPoolSystem_step_iff.mp hstep with
  | worker | wake | notify => exact List.length_set
  | notifyAll => exact List.length_map _
  | _ => rfl

/-- A step of a thread or a notification enqueues nothing and does not stop the pool. -/
lemma serves_step (hserves : a.Serves) (hstep : TaskPoolStep s a s') :
    s'.enqueued = s.enqueued ∧ s'.pool.stop = s.pool.stop := by
  cases hstep with
  | worker _ hlaunch => cases hlaunch <;> exact ⟨rfl, rfl⟩
  | notify | notifyNone => exact ⟨rfl, rfl⟩
  | wake | enqueue | setStop | notifyAll | join | finish => exact hserves.elim

/-- **A step of a thread or a notification lowers the effort.**

**Proof sketch.** A thread comes nearer to its wait. The one that takes a task goes back to the
call, and there is a task less. A notification that wakes a thread is gone. -/
lemma effort_step (hserves : a.Serves) (hstep : TaskPoolStep s a s') : s'.effort < s.effort := by
  cases hstep with
  | @worker worker point _ point' hpoint hlaunch =>
    have hsum := sum_map_set WorkerPoint.effort hpoint point'
    cases hlaunch with
    | take htasks =>
      simp only [WorkerPoint.effort] at hsum
      simp only [effort, htasks, List.length_cons]
      omega
    | _ =>
      simp only [WorkerPoint.effort] at hsum
      simp only [effort]
      omega
  | notify hk hwaiting =>
    have hsum := sum_map_set WorkerPoint.effort hwaiting .lock
    simp only [WorkerPoint.effort] at hsum
    simp only [effort, hk]
    omega
  | notifyNone hk =>
    simp only [effort, hk]
    omega
  | wake | enqueue | setStop | notifyAll | join | finish => exact hserves.elim

/-- The effort is at most six steps a thread, five a task and six a notification. -/
lemma effort_le (s : TaskPool) :
    s.effort ≤ 6 * s.workers.length + 5 * s.pool.tasks.length + 6 * s.notifying := by
  have hpoint : ∀ e ∈ s.workers.map WorkerPoint.effort, e ≤ 6 := by
    intro e he
    obtain ⟨point, -, rfl⟩ := List.mem_map.mp he
    exact point.effort_le
  have hsum := List.sum_le_card_nsmul _ 6 hpoint
  rw [List.length_map, Nat.nsmul_eq_mul] at hsum
  unfold effort
  omega

/-- **Where no thread has a step left and no notification is to come**, the threads wait, and there
is no task.

**Proof sketch.** A notification can always execute, so there is none to come. The thread that holds
the mutex has a step, so none holds it, and then every thread has a step that does not wait. So all
wait, and a task would be left to threads that wait. -/
theorem settled_of_stuck (h : s.Attended) (hrunning : s.pool.stop = false)
    (hstuck : ∀ a : TaskPoolAction, a.Serves → taskPoolSystem.step s a = none) :
    s.pool.tasks = [] ∧ s.notifying = 0 ∧ ∀ point ∈ s.workers, point = .waiting := by
  have hno : ∀ {a s'}, TaskPoolAction.Serves a → ¬ TaskPoolStep s a s' := by
    intro a s' hserves hstep
    have hsome := taskPoolSystem_step_iff.mpr hstep
    rw [hstuck a hserves] at hsome
    cases hsome
  have hworker : ∀ {worker point p' point'}, s.workers[worker]? = some point →
      ¬ LaunchStep worker s.pool point p' point' := fun hpoint hlaunch =>
    hno (a := .worker _) trivial (.worker hpoint hlaunch)
  have hnotifying : s.notifying = 0 := by
    cases hk : s.notifying with
    | zero => rfl
    | succ k =>
      by_cases hmem : WorkerPoint.waiting ∈ s.workers
      · obtain ⟨worker, hwaiting⟩ := List.mem_iff_getElem?.mp hmem
        exact (hno (a := .notifyOne _) trivial (.notify hk hwaiting)).elim
      · exact (hno (a := .notifyOne _) trivial (.notifyNone hk hmem)).elim
  have hnotHolds : ∀ (worker : ℕ) (point : WorkerPoint), s.workers[worker]? = some point →
      ¬ point.Holds := by
    intro worker point hpoint hholds
    cases point with
    | test =>
      by_cases hempty : s.pool.tasks = []
      · exact hworker hpoint (.goToWait hrunning hempty)
      · exact hworker hpoint (.leaveLoop (Or.inr hempty))
    | wait => exact hworker hpoint .wait
    | checkStop => exact hworker hpoint (.goOn hrunning)
    | take =>
      obtain ⟨task, rest, htasks⟩ :=
        List.exists_cons_of_ne_nil (h.invariant.asserted worker _ hpoint)
      exact hworker hpoint (.take htasks)
    | _ => exact hholds
  have hfree : s.pool.mutex = none := by
    cases hmutex : s.pool.mutex with
    | none => rfl
    | some w =>
      have hlt := h.invariant.exclusive.owner_lt w hmutex
      have hw := List.getElem?_eq_getElem hlt
      exact (hnotHolds w _ hw ((h.invariant.exclusive.holds_iff w _ hw).mpr hmutex)).elim
  have hall : ∀ (worker : ℕ) (point : WorkerPoint), s.workers[worker]? = some point →
      point = .waiting := by
    intro worker point hpoint
    cases point with
    | lock => exact (hworker hpoint (.lock hfree)).elim
    | call task => exact (hworker hpoint .call).elim
    | waiting => rfl
    | returned => exact (h.remain worker hpoint).elim
    | _ => exact (hnotHolds worker _ hpoint trivial).elim
  refine ⟨?_, hnotifying, fun point hpoint => ?_⟩
  · by_contra htasks
    rcases h.attended htasks with hpos | ⟨worker, point, hpoint, hne⟩
    · exact Nat.ne_of_gt hpos hnotifying
    · exact hne (hall worker point hpoint)
  · obtain ⟨worker, hmem⟩ := List.mem_iff_getElem?.mp hpoint
    exact hall worker point hmem

end TaskPool

/-- **No wake-up is lost.** Take a pool of at least one thread in `LaunchWorkerThread`, in any state
that steps of the threads, calls of `Enqueue` and spurious wake-ups lead to before `m_Stop` is set.
From there on, let the threads and the notifications of the calls that are under way take their
steps, in whatever order. There are at most six of them for each thread, five for each task in the
queue and six for each notification; and when none is left, every task that was enqueued has been
taken, in order, and all threads wait.

**Proof sketch.** Each step lowers the effort (`TaskPool.effort_step`) and leaves no task to threads
that wait (`TaskPool.attended_step`). When no step is left the queue is empty
(`TaskPool.settled_of_stuck`), and the law of the channel says that all tasks have been taken. -/
theorem no_lost_wakeup (n : ℕ) (hn : 0 < n) (as : List TaskPoolAction) (s : TaskPool)
    (h : taskPoolSystem.run (.start n) as = some s) (hrunning : s.pool.stop = false)
    (bs : List TaskPoolAction) (hserves : ∀ b ∈ bs, b.Serves) (t : TaskPool)
    (hrun : taskPoolSystem.run s bs = some t) :
    bs.length ≤ 6 * n + 5 * s.pool.tasks.length + 6 * s.notifying ∧
      ((∀ a : TaskPoolAction, a.Serves → taskPoolSystem.step t a = none) →
        t.taken.map Prod.snd = List.range s.enqueued ∧ t.pool.tasks = [] ∧ t.notifying = 0 ∧
          ∀ point ∈ t.workers, point = .waiting) := by
  obtain ⟨⟨hattended, hstop, henqueued⟩, hle⟩ := taskPoolSystem.run_length_le
    (I := fun u => u.Attended ∧ u.pool.stop = false ∧ u.enqueued = s.enqueued)
    (C := fun _ a => a.Serves) (m := TaskPool.effort)
    (fun u a u' ⟨hu, hustop, huenqueued⟩ ha hstep => by
      have hpool := taskPoolSystem_step_iff.mp hstep
      obtain ⟨hsame, hstays⟩ := TaskPool.serves_step ha hpool
      rw [hustop] at hstays
      exact ⟨⟨TaskPool.attended_step hu hstep hstays, hstays, hsame.trans huenqueued⟩,
        TaskPool.effort_step ha hpool⟩)
    hrun (taskPoolSystem.along_of_forall (fun b hb _ => hserves b hb) s)
    ⟨TaskPool.attended_of_run hn h hrunning, hrunning, rfl⟩
  have hworkers : s.workers.length = n :=
    taskPoolSystem.run_invariant (I := fun u => u.workers.length = n)
      (fun u a u' hu hstep => (TaskPool.length_workers_step u a u' hstep).trans hu) h
      List.length_replicate
  refine ⟨?_, fun hstuck => ?_⟩
  · have heffort := s.effort_le
    rw [hworkers] at heffort
    omega
  · have hsettled := TaskPool.settled_of_stuck hattended hstop hstuck
    obtain ⟨c, hpushed, hpopped, hqueue⟩ := hattended.invariant.carries
    refine ⟨?_, hsettled⟩
    rw [← henqueued, ← hpushed, ← c.law, hqueue, hsettled.1, List.append_nil, hpopped]

/-- Two threads, of which one waits, and two tasks. The other thread takes the first task before the
notification; both are taken in the end, and both threads wait. -/
theorem no_lost_wakeup_two : ∃ s t,
    taskPoolSystem.run (.start 2) [.worker 0, .worker 0, .worker 0, .enqueue, .enqueue,
      .worker 1, .worker 1, .worker 1, .worker 1] = some s ∧
    taskPoolSystem.run s [.notifyOne (some 0), .worker 0, .worker 0, .worker 0, .worker 0,
      .notifyOne none, .worker 0, .worker 0, .worker 0, .worker 0, .worker 1, .worker 1, .worker 1,
      .worker 1] = some t ∧
    t.taken.map Prod.snd = [0, 1] := by
  have hserves : ∀ b ∈ [TaskPoolAction.notifyOne (some 0), .worker 0, .worker 0, .worker 0,
      .worker 0, .notifyOne none, .worker 0, .worker 0, .worker 0, .worker 0, .worker 1, .worker 1,
      .worker 1, .worker 1], b.Serves := by
    simp [TaskPoolAction.Serves]
  refine ⟨_, _, rfl, rfl, ?_⟩
  refine ((no_lost_wakeup 2 (by decide) [.worker 0, .worker 0, .worker 0, .enqueue, .enqueue,
    .worker 1, .worker 1, .worker 1, .worker 1] _ rfl rfl _ hserves _ rfl).2 fun a ha => ?_).1
  cases a with
  | worker worker =>
    match worker with
    | 0 | 1 => rfl
    | k + 2 => rfl
  | notifyOne woken => rfl
  | wake | enqueue | destructor => exact ha.elim

end SteerStone
