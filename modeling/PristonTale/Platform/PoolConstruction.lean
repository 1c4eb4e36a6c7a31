import PristonTale.Platform.ThreadPool

set_option relaxedAutoImplicit false
set_option autoImplicit false

/-!
# The construction of the thread pool

The constructor of `ThreadPool` starts its threads with a `Worker` each, which it builds as an
argument of `std::thread`. But the constructor of `Worker` calls `LaunchWorkerThread` itself. So the
constructing thread enters the worker loop before the first thread is started, and as nothing
enqueues a task or sets `m_Stop` while the pool is constructed, it never leaves it.

## Main definitions

* `SteerStone.Construction` — a pool that is constructed; `SteerStone.ConstructorPoint` — where the
  constructing thread stands.
* `SteerStone.constructionSystem` — the steps of the constructing thread and of those it has
  started.
* `SteerStone.Constructs` — there is a run in which the constructor does what it is for.

## Main results

* `SteerStone.stuck_step` — the constructing thread stays in the worker loop.
* `SteerStone.construction_iff` — the pool sizes with which the constructor can return.

## Implementation notes

* A copy of a `Worker`, such as `std::thread` makes of its argument, does not call
  `LaunchWorkerThread`.
-/

namespace SteerStone

open Foundations

/-- The control points of the constructor of `ThreadPool`. -/
inductive ConstructorPoint where
  /-- The condition of the loop. -/
  | test (i : ℕ)
  /-- `Worker(*this)`: the constructor of `Worker`, in `LaunchWorkerThread`. -/
  | argument (i : ℕ) (point : WorkerPoint)
  /-- `std::thread` and `push_back`. -/
  | launch (i : ℕ)
  /-- The constructor has returned. -/
  | returned
  deriving DecidableEq, Repr

/-- A pool that is constructed. Among the threads that share it, `none` is the constructing one. -/
structure Construction where
  /-- What the threads share. -/
  pool : ThreadPool (Option ℕ)
  /-- `m_Workers`: where each thread stands. -/
  workers : List WorkerPoint
  /-- Where the constructing thread stands. -/
  constructor : ConstructorPoint
  deriving DecidableEq, Repr

/-- What happens while a pool is constructed. -/
inductive ConstructionAction where
  /-- The constructing thread takes its next step. -/
  | constructor
  /-- The constructing thread wakes up from a wait without having been notified. -/
  | wakeConstructor
  /-- A thread that has been started takes its next step. -/
  | worker (worker : ℕ)
  /-- A thread that waits wakes up without having been notified. -/
  | wake (worker : ℕ)
  deriving DecidableEq, Repr

namespace Construction

/-- At the start of the loop of the constructor. -/
def start : Construction := ⟨.empty, [], .test 0⟩

/-- The next step of the constructing thread. -/
def stepConstructor (poolSize : ℕ) (s : Construction) : Option Construction :=
  match s.constructor with
  | .test i => some { s with constructor := if i < poolSize then .argument i .lock else .returned }
  | .argument i .returned => some { s with constructor := .launch i }
  | .argument i point =>
    (s.pool.launchWorkerThread none point).map fun (pool, point') =>
      { s with pool := pool, constructor := .argument i point' }
  | .launch i => some { s with workers := s.workers ++ [.lock], constructor := .test (i + 1) }
  | .returned => none

/-- The constructing thread wakes up, if it waits. -/
def wakeConstructor (s : Construction) : Option Construction :=
  match s.constructor with
  | .argument i .waiting => some { s with constructor := .argument i .lock }
  | _ => none

/-- The next step of a thread that has been started. -/
def stepWorker (s : Construction) (worker : ℕ) : Option Construction := do
  let point ← s.workers[worker]?
  let (pool, point') ← s.pool.launchWorkerThread (some worker) point
  return { s with pool := pool, workers := s.workers.set worker point' }

/-- A thread wakes up, if it waits. -/
def wake (s : Construction) (worker : ℕ) : Option Construction :=
  if s.workers[worker]? = some .waiting then
    some { s with workers := s.workers.set worker .lock }
  else none

/-- The constructing thread is in `LaunchWorkerThread`. -/
def InWorkerLoop (s : Construction) : Prop := ∃ i point, s.constructor = .argument i point

end Construction

/-- **The construction of a pool**, with no call of `Enqueue` and no destructor. -/
def constructionSystem (poolSize : ℕ) : Transition Construction ConstructionAction where
  step s
    | .constructor => s.stepConstructor poolSize
    | .wakeConstructor => s.wakeConstructor
    | .worker worker => s.stepWorker worker
    | .wake worker => s.wake worker

/-- **What the constructor is for**: there is a run in which it returns, with as many threads as it
was asked for, and in which the constructing thread has not entered the worker loop. -/
def Constructs (poolSize : ℕ) : Prop :=
  ∃ as s, (constructionSystem poolSize).run .start as = some s ∧ s.constructor = .returned ∧
    s.workers.length = poolSize ∧
    (constructionSystem poolSize).Always (fun s => ¬ s.InWorkerLoop) .start as

/-- The points of the worker loop that are passed while there is no task and the pool does not
stop. -/
def WorkerPoint.Idle (point : WorkerPoint) : Prop :=
  point = .lock ∨ point = .test ∨ point = .wait ∨ point = .waiting

/-- No thread has been started, and the constructing thread is about to enter the worker loop, or in
it and idle. -/
structure Construction.Stuck (s : Construction) : Prop where
  /-- `m_Stop` is not set. -/
  stop : s.pool.stop = false
  /-- There is no task. -/
  tasks : s.pool.tasks = []
  /-- No thread has been started. -/
  workers : s.workers = []
  /-- Where the constructing thread stands. -/
  constructor : s.constructor = .test 0 ∨
    ∃ point, s.constructor = .argument 0 point ∧ point.Idle

/-- An idle thread stays idle while there is no task and the pool does not stop. -/
lemma idle_of_launchStep {ι : Type} {me : ι} {p p' : ThreadPool ι} {point point' : WorkerPoint}
    (hstop : p.stop = false) (htasks : p.tasks = []) (hidle : point.Idle)
    (h : LaunchStep me p point p' point') :
    p'.stop = false ∧ p'.tasks = [] ∧ point'.Idle := by
  cases h with
  | lock => exact ⟨hstop, htasks, Or.inr (Or.inl rfl)⟩
  | goToWait => exact ⟨hstop, htasks, Or.inr (Or.inr (Or.inl rfl))⟩
  | wait => exact ⟨hstop, htasks, Or.inr (Or.inr (Or.inr rfl))⟩
  | leaveLoop hleave =>
    rcases hleave with hstopped | htask
    · exact absurd (hstop.symm.trans hstopped) Bool.false_ne_true
    · exact absurd htasks htask
  | stop | goOn | take | call => simp [WorkerPoint.Idle] at hidle

/-- In the worker loop, the constructing thread takes the steps of any thread there. -/
lemma stepConstructor_argument {poolSize i : ℕ} {s : Construction} {point : WorkerPoint}
    (hpoint : s.constructor = .argument i point) (hne : point ≠ .returned) :
    s.stepConstructor poolSize = (s.pool.launchWorkerThread none point).map fun r =>
      { s with pool := r.1, constructor := .argument i r.2 } := by
  unfold Construction.stepConstructor
  rw [hpoint]
  cases point with
  | returned => exact absurd rfl hne
  | _ => rfl

/-- **The constructing thread stays in the worker loop.**

**Proof sketch.** From the condition of the loop, which is met, it comes to `LaunchWorkerThread`,
and from there only through the wait back to the test of the condition; no other thread is there to
do anything. -/
theorem stuck_step {poolSize : ℕ} (hpos : 0 < poolSize) (s : Construction)
    (a : ConstructionAction) (s' : Construction) (h : s.Stuck)
    (hstep : (constructionSystem poolSize).step s a = some s') : s'.Stuck := by
  have hnone : ∀ worker : ℕ, s.workers[worker]? = none := fun worker => by
    rw [h.workers]
    rfl
  cases a with
  | constructor =>
    have hown : s.stepConstructor poolSize = some s' := hstep
    rcases h.constructor with hpoint | ⟨point, hpoint, hidle⟩
    · unfold Construction.stepConstructor at hown
      rw [hpoint] at hown
      dsimp only at hown
      rw [if_pos hpos] at hown
      obtain rfl := Option.some.inj hown
      exact ⟨h.stop, h.tasks, h.workers, Or.inr ⟨.lock, rfl, Or.inl rfl⟩⟩
    · have hne : point ≠ .returned := by
        rintro rfl
        simp [WorkerPoint.Idle] at hidle
      rw [stepConstructor_argument hpoint hne] at hown
      obtain ⟨⟨pool, point'⟩, hlaunch, rfl⟩ := Option.map_eq_some_iff.mp hown
      obtain ⟨hstop, htasks, hidle'⟩ := idle_of_launchStep h.stop h.tasks hidle
        (launchWorkerThread_eq_some_iff.mp hlaunch)
      exact ⟨hstop, htasks, h.workers, Or.inr ⟨point', rfl, hidle'⟩⟩
  | wakeConstructor =>
    have hwake : s.wakeConstructor = some s' := hstep
    unfold Construction.wakeConstructor at hwake
    split at hwake
    case h_1 i hpoint =>
      obtain rfl := Option.some.inj hwake
      rcases h.constructor with htest | ⟨point, hargument, -⟩
      · exact nomatch hpoint.symm.trans htest
      · obtain ⟨rfl, -⟩ := ConstructorPoint.argument.inj (hpoint.symm.trans hargument)
        exact ⟨h.stop, h.tasks, h.workers, Or.inr ⟨.lock, rfl, Or.inl rfl⟩⟩
    case h_2 => cases hwake
  | worker worker =>
    have hown : s.stepWorker worker = some s' := hstep
    rw [Construction.stepWorker, hnone] at hown
    cases hown
  | wake worker =>
    have hwake : s.wake worker = some s' := hstep
    rw [Construction.wake, hnone, if_neg nofun] at hwake
    cases hwake

/-- In every run. -/
lemma stuck_of_run {poolSize : ℕ} (hpos : 0 < poolSize) {as : List ConstructionAction}
    {s : Construction} (h : (constructionSystem poolSize).run .start as = some s) : s.Stuck :=
  (constructionSystem poolSize).run_invariant (stuck_step hpos) h ⟨rfl, rfl, rfl, Or.inl rfl⟩

/-- The constructor has not returned while it is stuck. -/
lemma ne_returned_of_stuck {s : Construction} (h : s.Stuck) : s.constructor ≠ .returned := by
  rcases h.constructor with hpoint | ⟨point, hpoint, -⟩
  · rw [hpoint]
    nofun
  · rw [hpoint]
    nofun

/-- **The construction, exactly.** For every pool size: there is a run in which the constructor
returns with as many threads as it was asked for, none but these having entered the worker loop, if
and only if it was asked for none. For every greater size, in every run, no thread is started, and
the constructing thread is at the condition of its loop or in the worker loop.

**Proof sketch.** The first round of the loop comes to the constructor of `Worker`, and stays there
(`stuck_step`). Without a round the constructor returns at once. -/
theorem construction_iff (poolSize : ℕ) :
    (Constructs poolSize ↔ poolSize = 0) ∧
    (0 < poolSize → ∀ as s, (constructionSystem poolSize).run .start as = some s →
      s.workers = [] ∧ (s.constructor = .test 0 ∨ s.InWorkerLoop)) := by
  refine ⟨⟨?_, ?_⟩, fun hpos as s hrun => ?_⟩
  · rintro ⟨as, s, hrun, hreturned, -, -⟩
    by_contra hne
    exact ne_returned_of_stuck (stuck_of_run (Nat.pos_of_ne_zero hne) hrun) hreturned
  · rintro rfl
    refine ⟨[.constructor], _, rfl, rfl, rfl, ?_⟩
    have htest : ¬ Construction.start.InWorkerLoop := fun ⟨_, _, h⟩ => nomatch h
    refine ⟨htest, fun s' hstep => ?_⟩
    obtain rfl := Option.some.inj hstep
    exact fun ⟨_, _, h⟩ => nomatch h
  · have hstuck := stuck_of_run hpos hrun
    refine ⟨hstuck.workers, ?_⟩
    rcases hstuck.constructor with hpoint | ⟨point, hpoint, -⟩
    · exact Or.inl hpoint
    · exact Or.inr ⟨0, point, hpoint⟩

/-- A pool of one thread is not constructed. The constructing thread takes the mutex, finds no task,
and waits; no step is left but to wake up without having been notified. -/
theorem construction_fails : ¬ Constructs 1 ∧ ∃ s,
    (constructionSystem 1).run .start
      [.constructor, .constructor, .constructor, .constructor] = some s ∧
    s.constructor = .argument 0 .waiting ∧ s.workers = [] ∧
    (constructionSystem 1).step s .constructor = none := by
  refine ⟨?_, _, rfl, rfl, rfl, rfl⟩
  rintro ⟨as, s, hrun, hreturned, -, -⟩
  exact ne_returned_of_stuck (stuck_of_run Nat.zero_lt_one hrun) hreturned

end SteerStone
