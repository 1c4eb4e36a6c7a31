import PristonTale.Database.ConnectionPool
import PristonTale.Foundations.Balance

set_option relaxedAutoImplicit false
set_option autoImplicit false

/-!
# The database connections of logins

How many database connections the logins of a server take. Each network thread handles one packet at
a time. `HandleLoginUser` constructs a `QueryDatabase`, which borrows a connection from the pool,
and `SendUserSuccess`, which it calls, constructs a second one; both are destroyed when their
functions are left, by a return or by an exception, the second before the first.

## Main definitions

* `SteerStone.LoginPhase`, `SteerStone.LoginMove` — where a thread is in `HandleLoginUser`.
* `SteerStone.loginPool` — the threads and the pool.

## Main results

* `SteerStone.login_connections_bound` — two connections for each thread are enough.
* `SteerStone.login_connections_reached` — and all of them can be needed.
-/

namespace SteerStone

open Foundations

/-- Where a thread is. -/
inductive LoginPhase where
  /-- Not in `HandleLoginUser`. -/
  | idle
  /-- In `HandleLoginUser`, with its `QueryDatabase`. -/
  | handling
  /-- In `SendUserSuccess`, with a second one. -/
  | answering
  deriving DecidableEq, Repr

/-- How many `QueryDatabase`s the thread has. -/
def LoginPhase.objects : LoginPhase → ℕ
  | .idle => 0
  | .handling => 1
  | .answering => 2

/-- What a thread does with its `QueryDatabase`s; `elsewhere` are the references to connections that
are held outside of the pool. -/
inductive LoginMove where
  /-- `HandleLoginUser` constructs its own. -/
  | begin (elsewhere : List Connection)
  /-- `SendUserSuccess` constructs its own. -/
  | answer (elsewhere : List Connection)
  /-- That of `SendUserSuccess` is destroyed. -/
  | answered
  /-- That of `HandleLoginUser` is destroyed. -/
  | done

namespace LoginMove

/-- Where the thread is before. -/
def before : LoginMove → LoginPhase
  | begin _ => .idle
  | answer _ => .handling
  | answered => .answering
  | done => .handling

/-- Where the thread is afterwards. -/
def after : LoginMove → LoginPhase
  | begin _ => .handling
  | answer _ => .answering
  | answered => .handling
  | done => .idle

/-- What it does to the pool. The objects of the thread `i` have the numbers `2 * i` and
`2 * i + 1`. -/
def action (i : ℕ) : LoginMove → PoolAction
  | begin elsewhere => .construct (2 * i) elsewhere
  | answer elsewhere => .construct (2 * i + 1) elsewhere
  | answered => .destroy (2 * i + 1)
  | done => .destroy (2 * i)

end LoginMove

/-- The threads and the pool. -/
structure LoginPool where
  /-- The pool, and the objects alive. -/
  pool : PoolState
  /-- Where each thread is. -/
  phases : List LoginPhase

/-- One thread makes a move. -/
def loginPool (driver : SqlDriver) : Transition LoginPool (ℕ × LoginMove) where
  step s a :=
    if s.phases[a.1]? = some a.2.before then
      ((poolSystem driver).step s.pool (a.2.action a.1)).map fun p =>
        ⟨p, s.phases.set a.1 a.2.after⟩
    else none

variable {driver : SqlDriver}

/-- What a move is. -/
lemma loginPool_step {s s' : LoginPool} {a : ℕ × LoginMove}
    (h : (loginPool driver).step s a = some s') :
    s.phases[a.1]? = some a.2.before ∧
      (poolSystem driver).step s.pool (a.2.action a.1) = some s'.pool ∧
      s'.phases = s.phases.set a.1 a.2.after := by
  simp only [loginPool] at h
  split_ifs at h with hphase
  obtain ⟨p, hp, rfl⟩ := Option.map_eq_some_iff.mp h
  exact ⟨hphase, hp, rfl⟩

/-- The objects of the threads. -/
def LoginPool.objects (s : LoginPool) : ℕ := (s.phases.map LoginPhase.objects).sum

/-- A move constructs one object or destroys one. -/
lemma objects_step {s s' : LoginPool} {a : ℕ × LoginMove}
    (h : (loginPool driver).step s a = some s') (halive : s.pool.alive.length = s.objects) :
    s'.pool.alive.length = s'.objects := by
  obtain ⟨hphase, hstep, hset⟩ := loginPool_step h
  have hsum := sum_map_set LoginPhase.objects hphase a.2.after
  rw [← hset] at hsum
  change s'.objects + _ = s.objects + _ at hsum
  obtain ⟨i, move⟩ := a
  rcases poolSystem_step_cases hstep with ⟨q, elsewhere, c, p, haction, -, -, hst⟩ |
    ⟨b, haction, hb, hst⟩
  · rw [hst, List.length_cons]
    cases move <;> simp [LoginMove.action] at haction <;>
      simp only [LoginMove.before, LoginMove.after, LoginPhase.objects] at hsum <;> omega
  · have hpos := List.length_pos_of_mem hb
    rw [hst, List.length_erase_of_mem hb]
    cases move <;> simp [LoginMove.action] at haction <;>
      simp only [LoginMove.before, LoginMove.after, LoginPhase.objects] at hsum <;> omega

/-- No thread has more than two objects. -/
lemma objects_le (phases : List LoginPhase) :
    (phases.map LoginPhase.objects).sum ≤ 2 * phases.length := by
  induction phases with
  | nil => exact Nat.le_refl 0
  | cons phase phases ih =>
    have hle : phase.objects ≤ 2 := by cases phase <;> decide
    rw [List.map_cons, List.sum_cons, List.length_cons]
    omega

/-- Every connection that was created is free or lent. -/
lemma created_eq_size {st : PoolState} {l : Lending ℕ Connection} (h : PoolRefines st l) :
    st.pool.mySQLConnection.created = l.size := by
  have hperm : (firstConnections st.pool.mySQLConnection.created).Perm
      (l.loans.map Prod.snd ++ l.free) := by
    refine (List.perm_ext_iff_of_nodup (nodup_firstConnections _) l.exclusive).mpr fun c => ?_
    rw [mem_firstConnections, ← h.created, List.mem_append, or_comm]
  have hlength := hperm.length_eq
  simp only [firstConnections, List.length_map, List.length_range, List.length_append] at hlength
  rw [hlength, Lending.size, Nat.add_comm]

/-- What holds of a pool that started with `n` connections and has `k` threads. -/
structure LoginPool.Within (n k : ℕ) (s : LoginPool) : Prop where
  /-- The pool is a stock, as large as it started or as the loans have needed. -/
  stock : ∃ l m, PoolRefines s.pool l ∧ l.size = max n m ∧ m ≤ 2 * k
  /-- The threads. -/
  threads : s.phases.length = k
  /-- The objects alive are those of the threads. -/
  alive : s.pool.alive.length = s.objects

/-- Every move keeps a pool within its bound.

**Proof sketch.** The size follows the law of a stock that is lent out (`Lending.Step.size_eq`), and
the loans are the objects of the threads. -/
lemma within_step {n k : ℕ} (s : LoginPool) (a : ℕ × LoginMove) (s' : LoginPool)
    (h : s.Within n k) (hstep : (loginPool driver).step s a = some s') : s'.Within n k := by
  obtain ⟨-, hpool, hset⟩ := loginPool_step hstep
  obtain ⟨l, m, href, hsize, hm⟩ := h.stock
  obtain ⟨l', hl', href', -⟩ := poolSystem_step href hpool
  have halive := objects_step hstep h.alive
  have hthreads : s'.phases.length = k := by rw [hset, List.length_set, h.threads]
  have hle : s'.objects ≤ 2 * k := hthreads ▸ objects_le s'.phases
  refine ⟨⟨l', max m l'.loans.length, href', hl'.size_eq hsize, ?_⟩, hthreads, halive⟩
  rw [← href'.loans, halive]
  exact Nat.max_le.mpr ⟨hm, hle⟩

variable {n : ℕ} {username password database host port : String} {p : ConnectionPool}

/-- A pool is within its bound after every run. -/
lemma within_of_run {k : ℕ}
    (hp : ConnectionPool.new driver (.new username password database host port) n = .ok p)
    {as : List (ℕ × LoginMove)} {s : LoginPool}
    (h : (loginPool driver).run ⟨⟨p, []⟩, List.replicate k .idle⟩ as = some s) : s.Within n k := by
  refine (loginPool driver).run_invariant within_step h ⟨⟨_, 0, PoolRefines.new hp, ?_,
    Nat.zero_le _⟩, List.length_replicate, ?_⟩
  · simp [Lending.size, Lending.stocked, firstConnections]
  · simp [LoginPool.objects, LoginPhase.objects]

/-- **Two connections for each thread are enough.** For every size of the pool, every number of
network threads and every interleaving of the logins they handle, in which logins may be left at any
point: no more connections are borrowed than there are `QueryDatabase`s, and no more than two for
each thread; and all the connections that were ever created are as many as the pool was given, or
two for each thread if that is more. So a pool of two for each thread creates none when it has been
constructed.

**Proof sketch.** In every state reached the pool is a stock of which as many connections are lent
as there are objects, and its size is the most that were ever lent at once, or the first size
(`within_of_run`). A thread has two objects at most (`objects_le`). -/
theorem login_connections_bound (k : ℕ)
    (hp : ConnectionPool.new driver (.new username password database host port) n = .ok p)
    (as : List (ℕ × LoginMove)) (s : LoginPool)
    (h : (loginPool driver).run ⟨⟨p, []⟩, List.replicate k .idle⟩ as = some s) :
    s.pool.pool.borrowedPool.length = s.objects ∧ s.objects ≤ 2 * k ∧
      s.pool.pool.mySQLConnection.created ≤ max n (2 * k) ∧
      (2 * k ≤ n → s.pool.pool.mySQLConnection.created = n) := by
  have hwithin := within_of_run hp h
  obtain ⟨l, m, href, hsize, hm⟩ := hwithin.stock
  have hcreated := (created_eq_size href).trans hsize
  refine ⟨?_, hwithin.threads ▸ objects_le s.phases, ?_, fun hle => ?_⟩
  · rw [href.length_borrowed, ← href.loans, hwithin.alive]
  · omega
  · omega

/-- Two logins that answer at the same time, with a pool of one connection: four connections. -/
theorem login_connections_bound_two : ∃ s,
    (loginPool .reliable).run ⟨⟨.single, []⟩, List.replicate 2 .idle⟩
      [(0, .begin []), (1, .begin []), (0, .answer []), (1, .answer [])] = some s ∧
    s.objects = 4 ∧ s.pool.pool.mySQLConnection.created ≤ 4 :=
  ⟨_, rfl, rfl, (login_connections_bound 2 new_single
    [(0, .begin []), (1, .begin []), (0, .answer []), (1, .answer [])] _ rfl).2.2.1⟩

/-! ## The bound is reached -/

/-- A driver that does not throw always has a connection to lend. -/
lemma exists_borrow (p : ConnectionPool) (elsewhere : List Connection) :
    ∃ r, p.borrow .reliable elsewhere = some r := by
  rw [borrow_eq]
  cases p.pool with
  | nil => exact ⟨_, rfl⟩
  | cons c rest => exact ⟨_, rfl⟩

/-- A thread can construct an object that is not alive. -/
lemma exists_construct (move : LoginMove) {s : LoginPool} {i q : ℕ}
    (hphase : s.phases[i]? = some move.before) (haction : move.action i = .construct q [])
    (hq : q ∉ s.pool.alive.map Prod.fst) : ∃ s', (loginPool .reliable).step s (i, move) = some s' ∧
      s'.phases = s.phases.set i move.after ∧
      s'.pool.alive.map Prod.fst = q :: s.pool.alive.map Prod.fst := by
  obtain ⟨⟨c, p⟩, hborrow⟩ := exists_borrow s.pool.pool []
  refine ⟨⟨⟨p, (q, c) :: s.pool.alive⟩, s.phases.set i move.after⟩, ?_, rfl, rfl⟩
  simp only [loginPool, hphase, if_true, haction, poolSystem, if_neg hq, hborrow, Option.map_some]

/-- The first `j` threads can all be in `SendUserSuccess`.

**Proof sketch.** Induction on `j`: the next thread constructs two objects more
(`exists_construct`), for which the ids `2 * j` and `2 * j + 1` are not taken. -/
lemma exists_answering (p : ConnectionPool) (k j : ℕ) (hj : j ≤ k) : ∃ as s,
    (loginPool .reliable).run ⟨⟨p, []⟩, List.replicate k .idle⟩ as = some s ∧
      s.phases = List.replicate j .answering ++ List.replicate (k - j) .idle ∧
      ∀ q ∈ s.pool.alive.map Prod.fst, q < 2 * j := by
  induction j with
  | zero => exact ⟨[], _, rfl, rfl, by simp⟩
  | succ j ih =>
    obtain ⟨as, s, hrun, hphases, hlt⟩ := ih (by omega)
    have hidle : s.phases[j]? = some .idle := by
      rw [hphases, List.getElem?_append_right (by simp), List.length_replicate, Nat.sub_self,
        show k - j = k - (j + 1) + 1 by omega]
      rfl
    obtain ⟨s₁, h₁, hset₁, hids₁⟩ := exists_construct (.begin []) hidle rfl
      fun hmem => by have := hlt _ hmem; omega
    have hphases₁ : s₁.phases[j]? = some .handling := by
      rw [hset₁, List.getElem?_set_self (List.getElem?_eq_some_iff.mp hidle).1]
      rfl
    obtain ⟨s₂, h₂, hset₂, hids₂⟩ := exists_construct (.answer []) hphases₁ rfl
      fun hmem => by
        rw [hids₁] at hmem
        rcases List.mem_cons.mp hmem with heq | hmem
        · omega
        · have := hlt _ hmem
          omega
    refine ⟨as ++ [(j, .begin []), (j, .answer [])], s₂, ?_, ?_, ?_⟩
    · rw [Transition.run_append _ _ hrun, Transition.run_cons_of_step _ _ h₁,
        Transition.run_cons_of_step _ _ h₂, Transition.run_nil]
    · rw [hset₂, hset₁, List.set_set, hphases, List.set_append_right _ _ (by simp)]
      rw [List.length_replicate, Nat.sub_self, show k - j = k - (j + 1) + 1 by omega,
        List.replicate_succ, List.set_cons_zero, List.replicate_succ', List.append_assoc]
      rfl
    · intro q hq
      rw [hids₂, hids₁] at hq
      simp only [List.mem_cons] at hq
      rcases hq with rfl | rfl | hq
      · omega
      · omega
      · have := hlt q hq
        omega

/-- **All of them can be needed.** With a driver that does not throw, whatever the size of the pool
and the number of threads, there are logins after which as many connections were created as the
bound allows. -/
theorem login_connections_reached (k : ℕ)
    (hp : ConnectionPool.new .reliable (.new username password database host port) n = .ok p) :
    ∃ as s, (loginPool .reliable).run ⟨⟨p, []⟩, List.replicate k .idle⟩ as = some s ∧
      s.pool.pool.mySQLConnection.created = max n (2 * k) := by
  obtain ⟨as, s, hrun, hphases, -⟩ := exists_answering p k k (Nat.le_refl k)
  have hwithin := within_of_run hp hrun
  obtain ⟨l, m, href, hsize, hm⟩ := hwithin.stock
  have hobjects : s.objects = 2 * k := by
    rw [LoginPool.objects, hphases, Nat.sub_self, List.replicate_zero, List.append_nil,
      List.map_replicate, List.sum_replicate_nat]
    exact Nat.mul_comm k 2
  have hloans : l.loans.length = 2 * k := by rw [← href.loans, hwithin.alive, hobjects]
  have hcreated := created_eq_size href
  have hunfold : l.size = l.free.length + l.loans.length := rfl
  exact ⟨as, s, hrun, by omega⟩

end SteerStone
