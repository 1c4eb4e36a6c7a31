import PristonTale.Database.ConnectionPool
import PristonTale.Foundations.Critical

set_option relaxedAutoImplicit false
set_option autoImplicit false

/-!
# Borrowers on several threads

`ConnectionPool::Borrow` and `ConnectionPool::UnBorrow` statement by statement, called by the
constructors and destructors of `QueryDatabase` objects on any number of threads
(`Shared/Database/ConnectionPool.h`, `Shared/Database/QueryDatabase.cpp`). Both hold `m_Mutex` until
they return, so the statements of other threads do not come between theirs, and what they do is one
step of the pool of `PristonTale.Database.ConnectionPool`.

## Main definitions

* `SteerStone.PoolStatement`, `SteerStone.poolMethods` — `Borrow` and `UnBorrow`, statement by
  statement.
* `SteerStone.poolOutline` — their proof outline.
* `SteerStone.borrowerSystem` — threads on which objects are constructed and destroyed.

## Main results

* `SteerStone.pool_run_of_serial` — calls in an order that the lifetimes of the objects allow are a
  run of the pool.
* `SteerStone.pool_calls_atomic` — every interleaving of the statements is matched by such a run.

## Implementation notes

* `CreateDatabase` is one statement: it is called under the mutex, and by nobody else once there is
  a pool.
* A statement is given the references that other objects and threads hold at that moment.
* Assertions are compiled out, as in `PristonTale.Database.ConnectionPool`.
-/

namespace SteerStone

open Foundations

/-- A call of the pool. -/
inductive PoolCall where
  /-- The constructor of the object `q` calls `Borrow`. -/
  | construct (q : ℕ)
  /-- The destructor of the object `q` calls `UnBorrow` with its `m_Connection`. -/
  | destroy (q : ℕ) (connection : Connection)
  deriving DecidableEq, Repr

/-- The object that calls. -/
def PoolCall.object : PoolCall → ℕ
  | .construct q | .destroy q _ => q

/-- The step of the pool that a call is. -/
def PoolCall.action : PoolCall → PoolAction
  | .construct q => .construct q []
  | .destroy q _ => .destroy q

/-- A statement of `Borrow` or of `UnBorrow`, with the local variables. -/
inductive PoolStatement where
  /-- `if (m_Pool.size() == 0)`. -/
  | start
  /-- The condition of the loop over `m_BorrowedPool`, with what is left of it. -/
  | loop (rest : List Connection)
  /-- `if (l_Connection.unique())`. -/
  | test (connection : Connection) (rest : List Connection)
  /-- `CreateDatabase` in the loop. -/
  | reclaim (connection : Connection) (rest : List Connection)
  /-- `m_BorrowedPool.erase(l_Connection)` in the loop. -/
  | eraseReclaimed (connection new : Connection)
  /-- `CreateDatabase` after the loop. -/
  | temporary
  /-- `m_BorrowedPool.insert(l_NewConnection)`, and its return. -/
  | insertNew (new : Connection)
  /-- `l_Connection = m_Pool.front()`. -/
  | front
  /-- `m_BorrowedPool.insert(l_Connection)`. -/
  | insertFront (connection : Connection)
  /-- `m_Pool.pop_front()`, and the return of `l_Connection`. -/
  | popFront (connection : Connection)
  /-- `m_BorrowedPool.erase(p_Connection)`. -/
  | erase (connection : Connection)
  /-- `m_Pool.push_back(p_Connection)`, and the return. -/
  | pushBack (connection : Connection)
  deriving DecidableEq, Repr

/-- What a statement does to the pool, given the references held outside of it: the next statement,
or the connection that is returned. -/
def ConnectionPool.execute (driver : SqlDriver) (elsewhere : List Connection) (p : ConnectionPool) :
    PoolStatement → Option (ConnectionPool × (PoolStatement ⊕ Option Connection))
  | .start => some (p, .inl (if p.pool.length = 0 then .loop p.borrowedPool else .front))
  | .loop [] => some (p, .inl .temporary)
  | .loop (c :: rest) => some (p, .inl (.test c rest))
  | .test c rest =>
    -- `c` itself is the local copy `l_Connection`
    some (p, .inl (if Unique (c :: p.references elsewhere) c then .reclaim c rest else .loop rest))
  | .reclaim c rest =>
    match p.mySQLConnection.createDatabase driver with
    | (some new, m) => some ({ p with mySQLConnection := m }, .inl (.eraseReclaimed c new))
    | (none, m) => some ({ p with mySQLConnection := m }, .inl (.loop rest))
  | .eraseReclaimed c new =>
    some ({ p with borrowedPool := p.borrowedPool.erase c }, .inl (.insertNew new))
  | .temporary =>
    match p.mySQLConnection.createDatabase driver with
    | (some new, m) => some ({ p with mySQLConnection := m }, .inl (.insertNew new))
    | (none, m) => some ({ p with mySQLConnection := m }, .inl .front)
  | .insertNew new =>
    some ({ p with borrowedPool := p.borrowedPool.insert new }, .inr (some new))
  | .front =>
    match p.pool with
    | [] => none
    | c :: _ => some (p, .inl (.insertFront c))
  | .insertFront c =>
    some ({ p with borrowedPool := p.borrowedPool.insert c }, .inl (.popFront c))
  | .popFront c => some ({ p with pool := p.pool.tail }, .inr (some c))
  | .erase c => some ({ p with borrowedPool := p.borrowedPool.erase c }, .inl (.pushBack c))
  | .pushBack c => some ({ p with pool := p.pool ++ [c] }, .inr none)

/-- `Borrow` and `UnBorrow`. -/
def poolMethods (driver : SqlDriver) :
    Methods ConnectionPool PoolCall (List Connection) PoolStatement (Option Connection) where
  enter
    | .construct _ => .start
    | .destroy _ c => .erase c
  next elsewhere p k := p.execute driver elsewhere k

variable {driver : SqlDriver}

/-! ## One call -/

/-- What a call is for. -/
def PoolSpec (driver : SqlDriver) (a : PoolCall) (p : ConnectionPool) (r : Option Connection)
    (p' : ConnectionPool) : Prop :=
  match a with
  | .construct _ => ∃ c, r = some c ∧ ∀ elsewhere, p.borrow driver elsewhere = some (c, p')
  | .destroy _ c => p' = p.unBorrow c

/-- What holds before a statement of `Borrow`, of the pool `p₀` where it got the mutex. -/
def BeforeBorrow (driver : SqlDriver) (p₀ p : ConnectionPool) : PoolStatement → Prop
  | .start => p = p₀
  | .loop rest => p = p₀ ∧ p₀.pool = [] ∧ ∀ c ∈ rest, c ∈ p₀.borrowedPool
  | .test c rest => p = p₀ ∧ p₀.pool = [] ∧ ∀ c' ∈ c :: rest, c' ∈ p₀.borrowedPool
  | .temporary => p = p₀ ∧ p₀.pool = []
  | .insertNew new => p₀.pool = [] ∧
      ∃ m, p₀.mySQLConnection.createDatabase driver = (some new, m) ∧
        p = { p₀ with mySQLConnection := m }
  | .front => p = p₀ ∨ p.pool = []
  | .insertFront c => p = p₀ ∧ p₀.pool.head? = some c
  | .popFront c => p₀.pool.head? = some c ∧
      p = { p₀ with borrowedPool := p₀.borrowedPool.insert c }
  -- the reclaiming path
  | .reclaim _ _ | .eraseReclaimed _ _ => False
  | .erase _ | .pushBack _ => False

/-- What holds before a statement of `UnBorrow`. -/
def BeforeUnBorrow (connection : Connection) (p₀ p : ConnectionPool) : PoolStatement → Prop
  | .erase c => c = connection ∧ p = p₀
  | .pushBack c => c = connection ∧ p = { p₀ with borrowedPool := p₀.borrowedPool.erase c }
  | _ => False

variable {p₀ p p' : ConnectionPool} {elsewhere : List Connection} {k k' : PoolStatement}
  {r : Option Connection} {connection : Connection}

/-- **A statement of `Borrow` that goes on.** The loop finds no connection to be unique, since it
holds a copy of the reference in the set.

**Proof sketch.** By the statement that is executed: each leads to the one that follows it in the
source, and until a connection is created or taken from `m_Pool` the pool is as it was. The test of
the loop leads on to the next connection (`not_unique_of_copy`). -/
lemma BeforeBorrow.goesOn (h : BeforeBorrow driver p₀ p k)
    (hnext : p.execute driver elsewhere k = some (p', .inl k')) :
    BeforeBorrow driver p₀ p' k' := by
  cases k with
  | start =>
    obtain ⟨rfl, rfl⟩ : p = p' ∧ _ = k' := by simpa [ConnectionPool.execute] using hnext
    obtain rfl : p = p₀ := h
    split_ifs with hempty
    · exact ⟨rfl, hempty, fun c hc => hc⟩
    · exact .inl rfl
  | loop rest =>
    obtain ⟨rfl, hempty, hrest⟩ := h
    cases rest with
    | nil =>
      obtain ⟨rfl, rfl⟩ : p = p' ∧ _ = k' := by simpa [ConnectionPool.execute] using hnext
      exact ⟨rfl, hempty⟩
    | cons c rest =>
      obtain ⟨rfl, rfl⟩ : p = p' ∧ _ = k' := by simpa [ConnectionPool.execute] using hnext
      exact ⟨rfl, hempty, hrest⟩
  | test c rest =>
    obtain ⟨rfl, hempty, hrest⟩ := h
    obtain ⟨rfl, rfl⟩ : p = p' ∧ _ = k' := by simpa [ConnectionPool.execute] using hnext
    have hmem : c ∈ p.references elsewhere := by
      unfold ConnectionPool.references
      simp [hrest c List.mem_cons_self]
    rw [if_neg (not_unique_of_copy hmem)]
    exact ⟨rfl, hempty, fun c' hc' => hrest c' (List.mem_cons_of_mem c hc')⟩
  | temporary =>
    obtain ⟨rfl, hempty⟩ := h
    rcases hc : p.mySQLConnection.createDatabase driver with ⟨_ | new, m⟩
    · obtain ⟨rfl, rfl⟩ : _ = p' ∧ _ = k' := by simpa [ConnectionPool.execute, hc] using hnext
      exact .inr hempty
    · obtain ⟨rfl, rfl⟩ : _ = p' ∧ _ = k' := by simpa [ConnectionPool.execute, hc] using hnext
      exact ⟨hempty, m, hc, rfl⟩
  | front =>
    cases hpool : p.pool with
    | nil => simp [ConnectionPool.execute, hpool] at hnext
    | cons c rest =>
      obtain rfl : p = p₀ := h.resolve_right (by rw [hpool]; exact List.cons_ne_nil c rest)
      obtain ⟨rfl, rfl⟩ : p = p' ∧ _ = k' := by simpa [ConnectionPool.execute, hpool] using hnext
      exact ⟨rfl, by rw [hpool]; rfl⟩
  | insertFront c =>
    obtain ⟨rfl, hhead⟩ := h
    obtain ⟨rfl, rfl⟩ : _ = p' ∧ _ = k' := by simpa [ConnectionPool.execute] using hnext
    exact ⟨hhead, rfl⟩
  | insertNew | popFront => simp [ConnectionPool.execute] at hnext
  | reclaim | eraseReclaimed | erase | pushBack => exact h.elim

/-- **A statement of `Borrow` that returns.** -/
lemma BeforeBorrow.returns (h : BeforeBorrow driver p₀ p k)
    (hnext : p.execute driver elsewhere k = some (p', .inr r)) (q : ℕ) :
    PoolSpec driver (.construct q) p₀ r p' := by
  cases k with
  | insertNew new =>
    obtain ⟨hempty, m, hm, rfl⟩ := h
    obtain ⟨rfl, rfl⟩ : _ = p' ∧ _ = r := by simpa [ConnectionPool.execute] using hnext
    refine ⟨new, rfl, fun elsewhere => ?_⟩
    rw [borrow_eq, hempty, hm]
  | popFront c =>
    obtain ⟨hhead, rfl⟩ := h
    obtain ⟨rfl, rfl⟩ : _ = p' ∧ _ = r := by simpa [ConnectionPool.execute] using hnext
    obtain ⟨rest, hpool⟩ := List.head?_eq_some_iff.mp hhead
    refine ⟨c, rfl, fun elsewhere => ?_⟩
    rw [borrow_eq, hpool]
    rfl
  | loop rest => cases rest <;> simp [ConnectionPool.execute] at hnext
  | temporary =>
    rcases hc : p.mySQLConnection.createDatabase driver with ⟨_ | new, m⟩ <;>
      simp [ConnectionPool.execute, hc] at hnext
  | front =>
    cases hpool : p.pool <;> simp [ConnectionPool.execute, hpool] at hnext
  | start | test | insertFront => simp [ConnectionPool.execute] at hnext
  | reclaim | eraseReclaimed | erase | pushBack => exact h.elim

/-- A statement of `UnBorrow` that goes on. -/
lemma BeforeUnBorrow.goesOn (h : BeforeUnBorrow connection p₀ p k)
    (hnext : p.execute driver elsewhere k = some (p', .inl k')) :
    BeforeUnBorrow connection p₀ p' k' := by
  cases k with
  | erase c =>
    obtain ⟨rfl, rfl⟩ := h
    obtain ⟨rfl, rfl⟩ : _ = p' ∧ _ = k' := by simpa [ConnectionPool.execute] using hnext
    exact ⟨rfl, rfl⟩
  | pushBack => simp [ConnectionPool.execute] at hnext
  | _ => exact h.elim

/-- A statement of `UnBorrow` that returns. -/
lemma BeforeUnBorrow.returns (h : BeforeUnBorrow connection p₀ p k)
    (hnext : p.execute driver elsewhere k = some (p', .inr r)) :
    p' = p₀.unBorrow connection := by
  cases k with
  | erase => simp [ConnectionPool.execute] at hnext
  | pushBack c =>
    obtain ⟨rfl, rfl⟩ := h
    obtain ⟨rfl, -⟩ : _ = p' ∧ _ = r := by simpa [ConnectionPool.execute] using hnext
    rfl
  | _ => exact h.elim

/-- The proof outline of `Borrow` and `UnBorrow`. -/
def poolOutline (driver : SqlDriver) : Outline (poolMethods driver) (PoolSpec driver) where
  Before
    | .construct _, k, p₀, p => BeforeBorrow driver p₀ p k
    | .destroy _ c, k, p₀, p => BeforeUnBorrow c p₀ p k
  enters a p := by
    cases a with
    | construct q => exact rfl
    | destroy q c => exact ⟨rfl, rfl⟩
  goesOn {a} _ _ _ _ _ _ h hnext := by
    cases a with
    | construct q => exact BeforeBorrow.goesOn h hnext
    | destroy q c => exact BeforeUnBorrow.goesOn h hnext
  returns {a} _ _ _ _ _ _ h hnext := by
    cases a with
    | construct q => exact BeforeBorrow.returns h hnext q
    | destroy q c => exact BeforeUnBorrow.returns h hnext

/-! ## The objects -/

/-- The objects alive after a call has returned. -/
def PoolCall.after (alive : List (ℕ × Connection)) :
    PoolCall × Option Connection → List (ℕ × Connection)
  | (.construct q, r) => (r.map (Prod.mk q)).toList ++ alive
  | (.destroy q c, _) => alive.erase (q, c)

/-- An object is constructed while it is not alive, and destroyed with its `m_Connection`. -/
def PoolCall.Admissible (alive : List (ℕ × Connection)) : PoolCall → Prop
  | .construct q => q ∉ alive.map Prod.fst
  | .destroy q c => (q, c) ∈ alive

instance (alive : List (ℕ × Connection)) : DecidablePred (PoolCall.Admissible alive)
  | .construct _ => inferInstanceAs (Decidable (_ ∉ _))
  | .destroy _ _ => inferInstanceAs (Decidable (_ ∈ _))

/-- Each call that has returned was admissible. -/
def InOrder : List (ℕ × Connection) → List (PoolCall × Option Connection) → Prop
  | _, [] => True
  | alive, call :: calls => call.1.Admissible alive ∧ InOrder (PoolCall.after alive call) calls

/-- Threads on which objects are constructed and destroyed. -/
abbrev Borrowers : Type := Critical ConnectionPool PoolCall PoolStatement (Option Connection)

/-- The objects alive. -/
def Borrowers.alive (st : Borrowers) : List (ℕ × Connection) := st.returned.foldl PoolCall.after []

/-- A thread may call: the call is admissible, and no other thread calls for the same object. -/
def Borrowers.MayCall (st : Borrowers) (a : PoolCall) : Prop :=
  a.Admissible st.alive ∧ ∀ point ∈ st.points, ∀ b ∈ point.pending, b.object ≠ a.object

instance (st : Borrowers) : DecidablePred st.MayCall := fun _ => inferInstanceAs (Decidable (_ ∧ _))

/-- **Threads on which objects are constructed and destroyed**, statement by statement. -/
def borrowerSystem (driver : SqlDriver) :
    Transition Borrowers (CriticalAction PoolCall (List Connection)) where
  step st
    | .call i a =>
      if st.MayCall a then (criticalSystem (poolMethods driver)).step st (.call i a) else none
    | act => (criticalSystem (poolMethods driver)).step st act

/-- A step is one of the threads that call the methods. -/
lemma criticalSystem_step_of_step {st st' : Borrowers}
    {act : CriticalAction PoolCall (List Connection)}
    (h : (borrowerSystem driver).step st act = some st') :
    (criticalSystem (poolMethods driver)).step st act = some st' ∧
      ∀ i a, act = .call i a → st.MayCall a := by
  cases act with
  | call i a =>
    simp only [borrowerSystem] at h
    split_ifs at h with hmay
    refine ⟨h, fun j b heq => ?_⟩
    obtain ⟨-, rfl⟩ := CriticalAction.call.inj heq
    exact hmay
  | lock i => exact ⟨h, nofun⟩
  | statement i e => exact ⟨h, nofun⟩

/-- **Calls in the order of the lifetimes are a run of the pool.**

**Proof sketch.** Induction on the calls. No object is alive twice, so the one that a destructor
finds is its own. -/
theorem pool_run_of_serial {calls : List (PoolCall × Option Connection)}
    {alive : List (ℕ × Connection)} {p p' : ConnectionPool}
    (hserial : Serial (PoolSpec driver) p calls p') (horder : InOrder alive calls)
    (hnodup : (alive.map Prod.fst).Nodup) :
    (poolSystem driver).run ⟨p, alive⟩ (calls.map fun call => call.1.action) =
      some ⟨p', calls.foldl PoolCall.after alive⟩ := by
  induction calls generalizing alive p with
  | nil =>
    obtain rfl : p = p' := hserial
    rfl
  | cons call calls ih =>
    obtain ⟨p₁, hspec, hrest⟩ := hserial
    obtain ⟨hadmissible, hlater⟩ := horder
    obtain ⟨a, r⟩ := call
    cases a with
    | construct q =>
      obtain ⟨c, rfl, hborrow⟩ := hspec
      have hq : q ∉ alive.map Prod.fst := hadmissible
      have hstep : (poolSystem driver).step ⟨p, alive⟩ (.construct q []) =
          some ⟨p₁, (q, c) :: alive⟩ := by
        simp only [poolSystem, if_neg hq, hborrow, Option.map_some]
      refine ((poolSystem driver).run_cons_of_step _ hstep).trans ?_
      exact ih hrest hlater (List.nodup_cons.mpr ⟨hq, hnodup⟩)
    | destroy q c =>
      obtain rfl : p₁ = p.unBorrow c := hspec
      have hmem : (q, c) ∈ alive := hadmissible
      have hfind : alive.find? (·.1 = q) = some (q, c) := by
        cases hfound : alive.find? (·.1 = q) with
        | none => simpa using List.find?_eq_none.mp hfound _ hmem
        | some b =>
          have hb : b.1 = q := by simpa using List.find?_some hfound
          have hsame := List.inj_on_of_nodup_map hnodup (List.mem_of_find?_eq_some hfound) hmem hb
          rw [hsame]
      have hstep : (poolSystem driver).step ⟨p, alive⟩ (.destroy q) =
          some ⟨p.unBorrow c, alive.erase (q, c)⟩ := by
        simp only [poolSystem, hfind]
      refine ((poolSystem driver).run_cons_of_step _ hstep).trans ?_
      exact ih hrest hlater ((List.erase_sublist.map Prod.fst).nodup hnodup)

/-! ## The lifetimes -/

/-- One more call. -/
lemma InOrder.snoc {alive : List (ℕ × Connection)} {calls : List (PoolCall × Option Connection)}
    {call : PoolCall × Option Connection} (h : InOrder alive calls)
    (hcall : call.1.Admissible (calls.foldl PoolCall.after alive)) :
    InOrder alive (calls ++ [call]) := by
  induction calls generalizing alive with
  | nil => exact ⟨hcall, trivial⟩
  | cons first calls ih => exact ⟨h.1, ih h.2 hcall⟩

/-- A call stays admissible while those for other objects return. -/
lemma PoolCall.Admissible.after {alive : List (ℕ × Connection)} {a b : PoolCall}
    (h : b.Admissible alive) (hne : b.object ≠ a.object) (r : Option Connection) :
    b.Admissible (PoolCall.after alive (a, r)) := by
  cases b with
  | construct q =>
    have hq : q ∉ alive.map Prod.fst := h
    show q ∉ (PoolCall.after alive (a, r)).map Prod.fst
    cases a with
    | construct q' =>
      have hqq' : q ≠ q' := hne
      cases r with
      | none => exact hq
      | some c => exact List.not_mem_cons_of_ne_of_not_mem hqq' hq
    | destroy q' c =>
      exact fun hmem => hq ((List.erase_sublist.map Prod.fst).subset hmem)
  | destroy q c =>
    have hmem : (q, c) ∈ alive := h
    show (q, c) ∈ PoolCall.after alive (a, r)
    cases a with
    | construct q' => exact List.mem_append_right _ hmem
    | destroy q' c' =>
      have hqq' : q ≠ q' := hne
      exact (List.mem_erase_of_ne fun heq => hqq' (congrArg Prod.fst heq)).mpr hmem

/-- **Orderly threads**: each call that has returned was admissible, each that has not yet is, and
those are for different objects. -/
structure Borrowers.Orderly (st : Borrowers) : Prop where
  /-- The calls that have returned. -/
  history : InOrder [] st.returned
  /-- The calls that have not returned. -/
  admissible : ∀ (i : ℕ) (point : CallPoint PoolCall PoolStatement), st.points[i]? = some point →
    ∀ a ∈ point.pending, a.Admissible st.alive
  /-- They are for different objects. -/
  distinct : ∀ (i j : ℕ) (point point' : CallPoint PoolCall PoolStatement), i ≠ j →
    st.points[i]? = some point → st.points[j]? = some point' →
    ∀ a ∈ point.pending, ∀ b ∈ point'.pending, a.object ≠ b.object

namespace Borrowers.Orderly

variable {st st' : Borrowers} {i : ℕ} {point point' : CallPoint PoolCall PoolStatement}

/-- The calls stay different when one of them goes on or returns. -/
lemma distinct_set (h : st.Orderly) (hi : st.points[i]? = some point)
    (hpending : ∀ a ∈ point'.pending, a ∈ point.pending) (j k : ℕ)
    (p₁ p₂ : CallPoint PoolCall PoolStatement) (hne : j ≠ k)
    (hj : (st.points.set i point')[j]? = some p₁) (hk : (st.points.set i point')[k]? = some p₂) :
    ∀ a ∈ p₁.pending, ∀ b ∈ p₂.pending, a.object ≠ b.object := by
  intro a ha b hb
  rcases getElem?_set_cases hj with ⟨rfl, rfl⟩ | ⟨-, hj'⟩ <;>
    rcases getElem?_set_cases hk with ⟨rfl, rfl⟩ | ⟨-, hk'⟩
  · exact absurd rfl hne
  · exact h.distinct _ _ _ _ hne hi hk' a (hpending a ha) b hb
  · exact h.distinct _ _ _ _ hne hj' hi a ha b (hpending b hb)
  · exact h.distinct _ _ _ _ hne hj' hk' a ha b hb

/-- A thread goes on with its call. -/
lemma goesOn (h : st.Orderly) (hi : st.points[i]? = some point)
    (hpending : point'.pending = point.pending) (s : ConnectionPool) (owner : Option ℕ) :
    Borrowers.Orderly ⟨s, owner, st.points.set i point', st.returned⟩ := by
  have hsub : ∀ a ∈ point'.pending, a ∈ point.pending := by
    rw [hpending]
    exact fun a ha => ha
  refine ⟨h.history, fun j p hj a ha => ?_, h.distinct_set hi hsub⟩
  rcases getElem?_set_cases hj with ⟨rfl, rfl⟩ | ⟨-, hj⟩
  · exact h.admissible _ _ hi a (hsub a ha)
  · exact h.admissible _ _ hj a ha

/-- A thread calls. -/
lemma call (h : st.Orderly) {a : PoolCall} (hmay : st.MayCall a) :
    Borrowers.Orderly { st with points := st.points.set i (.waiting a) } := by
  refine ⟨h.history, fun j p hj b hb => ?_, fun j k p₁ p₂ hne hj hk b hb b' hb' => ?_⟩
  · rcases getElem?_set_cases hj with ⟨rfl, rfl⟩ | ⟨-, hj⟩
    · obtain rfl : a = b := Option.some.inj hb
      exact hmay.1
    · exact h.admissible _ _ hj b hb
  · rcases getElem?_set_cases hj with ⟨rfl, rfl⟩ | ⟨-, hj'⟩ <;>
      rcases getElem?_set_cases hk with ⟨rfl, rfl⟩ | ⟨-, hk'⟩
    · exact absurd rfl hne
    · obtain rfl : a = b := Option.some.inj hb
      exact (hmay.2 _ (List.mem_of_getElem? hk') b' hb').symm
    · obtain rfl : a = b' := Option.some.inj hb'
      exact hmay.2 _ (List.mem_of_getElem? hj') b hb
    · exact h.distinct _ _ _ _ hne hj' hk' b hb b' hb'

/-- A call returns. -/
lemma returns (h : st.Orderly) {a : PoolCall} {k : PoolStatement}
    (hi : st.points[i]? = some (.inside a k)) (s : ConnectionPool) (r : Option Connection) :
    Borrowers.Orderly ⟨s, none, st.points.set i .outside, st.returned ++ [(a, r)]⟩ := by
  have ha : a.Admissible st.alive := h.admissible _ _ hi a rfl
  refine ⟨h.history.snoc ha, fun j p hj b hb => ?_, h.distinct_set hi nofun⟩
  rcases getElem?_set_cases hj with ⟨rfl, rfl⟩ | ⟨hne, hj⟩
  · exact nomatch hb
  · have hafter := (h.admissible _ _ hj b hb).after (h.distinct _ _ _ _ hne hj hi b hb a rfl) r
    show b.Admissible ((st.returned ++ [(a, r)]).foldl PoolCall.after [])
    rw [List.foldl_append]
    exact hafter

/-- **Each step keeps threads orderly.** -/
theorem step (h : st.Orderly) {act : CriticalAction PoolCall (List Connection)}
    (hstep : (borrowerSystem driver).step st act = some st') : st'.Orderly := by
  obtain ⟨hcritical, hmay⟩ := criticalSystem_step_of_step hstep
  rcases criticalSystem_step_cases hcritical with
    ⟨i, a, rfl, hi, rfl⟩ | ⟨i, a, -, -, hi, rfl⟩ |
    ⟨i, e, a, k, s, k', -, hi, -, rfl⟩ | ⟨i, e, a, k, s, r, -, hi, -, rfl⟩
  · exact h.call (hmay i a rfl)
  · refine h.goesOn hi ?_ st.shared (some i)
    rfl
  · refine h.goesOn hi ?_ s st.owner
    rfl
  · exact h.returns hi s r

end Borrowers.Orderly

/-! ## Runs -/

/-- A run is one of the threads that call the methods. -/
lemma criticalSystem_run_of_run {st st' : Borrowers}
    {acts : List (CriticalAction PoolCall (List Connection))}
    (h : (borrowerSystem driver).run st acts = some st') :
    (criticalSystem (poolMethods driver)).run st acts = some st' := by
  induction acts generalizing st with
  | nil => exact h
  | cons act acts ih =>
    obtain ⟨st₁, hstep, hrest⟩ := (borrowerSystem driver).run_cons_eq_some.mp h
    rw [(criticalSystem (poolMethods driver)).run_cons_of_step acts
      (criticalSystem_step_of_step hstep).1]
    exact ih hrest

/-- Threads that are in no call are orderly. -/
lemma Borrowers.orderly_start (p : ConnectionPool) (threads : ℕ) :
    Borrowers.Orderly (.start p threads) := by
  have hnone : ∀ (i : ℕ) (point : CallPoint PoolCall PoolStatement),
      (List.replicate threads CallPoint.outside)[i]? = some point → ∀ a, a ∉ point.pending := by
    intro i point hi a ha
    rw [List.eq_of_mem_replicate (List.mem_of_getElem? hi)] at ha
    exact nomatch ha
  exact ⟨trivial, fun i point hi a ha => absurd ha (hnone i point hi a),
    fun i j point point' _ hi _ a ha => absurd ha (hnone i point hi a)⟩

variable {n : ℕ} {username password database host port : String}

/-- **The calls of the pool are atomic.** For every size of the pool, any number of threads and
every interleaving of the statements of `Borrow` and `UnBorrow`, called by constructors and
destructors of `QueryDatabase` objects of which each is on one thread at a time: no two threads are
in the pool at once; the calls that have returned, in the order in which they did, are a run of the
pool that leads to the objects alive, and to the pool itself whenever the mutex is free; and no two
objects alive have the same connection at any time, also while another thread is in the middle of a
call.

**Proof sketch.** The outline of `Borrow` and `UnBorrow` makes the calls serial
(`Foundations.Outline.atomic`), and threads stay orderly, so the serial calls are a run of the pool
(`pool_run_of_serial`). The pool is then a stock that is lent out (`poolSystem_refines`). -/
theorem pool_calls_atomic
    (hp : ConnectionPool.new driver (.new username password database host port) n = .ok p)
    (threads : ℕ) (acts : List (CriticalAction PoolCall (List Connection))) (st : Borrowers)
    (hrun : (borrowerSystem driver).run (.start p threads) acts = some st) :
    (∀ (i j : ℕ) (point point' : CallPoint PoolCall PoolStatement),
      st.points[i]? = some point → st.points[j]? = some point' →
      point.Holds → point'.Holds → i = j) ∧
    (∃ p', (poolSystem driver).run ⟨p, []⟩ (st.returned.map fun call => call.1.action) =
      some ⟨p', st.alive⟩ ∧ (st.owner = none → st.shared = p')) ∧
    ∀ b ∈ st.alive, ∀ b' ∈ st.alive, b.2 = b'.2 → b = b' := by
  have horderly : st.Orderly := (borrowerSystem driver).run_invariant
    (fun _ _ _ h hstep => h.step hstep) hrun (Borrowers.orderly_start p threads)
  obtain ⟨p', hatomic⟩ := (poolOutline driver).atomic (criticalSystem_run_of_run hrun)
  have hpool := pool_run_of_serial hatomic.serial horderly.history List.nodup_nil
  refine ⟨fun i j point point' hi hj hholds hholds' => ?_,
    ⟨p', hpool, fun hfree => (hatomic.free hfree).symm⟩, fun b hb b' hb' heq => ?_⟩
  · by_contra hne
    exact hatomic.exclusive.not_holds_of_ne hi hholds hj (Ne.symm hne) hholds'
  · obtain ⟨l, hl⟩ := poolSystem_refines ⟨_, PoolRefines.new hp⟩ hpool
    have hloans : st.alive = l.loans := hl.loans
    rw [hloans] at hb hb'
    exact Lending.eq_of_same_resource hb hb' heq

/-- Two threads with a pool of one connection: while the second waits for the mutex, the first gets
the connection of the pool; the second then finds it borrowed and not unique, and gets a new one. -/
theorem pool_calls_atomic_two : ∃ st,
    (borrowerSystem .reliable).run (.start .single 2)
      [.call 0 (.construct 0), .lock 0, .statement 0 [], .call 1 (.construct 1), .statement 0 [],
        .statement 0 [], .statement 0 [], .lock 1, .statement 1 [], .statement 1 [],
        .statement 1 [], .statement 1 [], .statement 1 [], .statement 1 []] = some st ∧
      st.alive = [(1, ⟨1, true⟩), (0, ⟨0, true⟩)] ∧
      ∀ b ∈ st.alive, ∀ b' ∈ st.alive, b.2 = b'.2 → b = b' := by
  refine ⟨_, rfl, rfl, ?_⟩
  exact (pool_calls_atomic new_single 2
    [.call 0 (.construct 0), .lock 0, .statement 0 [], .call 1 (.construct 1), .statement 0 [],
      .statement 0 [], .statement 0 [], .lock 1, .statement 1 [], .statement 1 [],
      .statement 1 [], .statement 1 [], .statement 1 [], .statement 1 []] _ rfl).2.2

end SteerStone
